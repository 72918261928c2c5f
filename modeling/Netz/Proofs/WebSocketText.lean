/-
Text in WebSocket messages.

The validator is between characters exactly behind whole characters, so it accepts UTF-8 and
nothing else, however the bytes are cut.
-/
import Netz.WebSocket.Message

namespace Netz.WebSocket

open Lib List

namespace Utf8Validator

/-! ### The validator -/

lemma feed_append (validator : Utf8Validator) (first rest : Bytes) :
    validator.feed (first ++ rest) = match validator.feed first with
      | (.ok (), next) => next.feed rest
      | (.error e, next) => (.error e, next) := by
  induction first generalizing validator with
  | nil => rfl
  | cons byte first ih =>
    rw [cons_append]
    simp only [feed]
    cases validator.feedByte byte with
    | error e => rfl
    | ok next => exact ih next

lemma feedByte_lead (byte : UInt8) :
    ({} : Utf8Validator).feedByte byte =
      if byte.toNat ≤ 0x7f then .ok {}
      else if 0xc2 ≤ byte.toNat ∧ byte.toNat ≤ 0xdf then .ok { remaining := 1 }
      else if byte.toNat = 0xe0 then .ok { remaining := 2, nextMin := 0xa0 }
      else if (0xe1 ≤ byte.toNat ∧ byte.toNat ≤ 0xec) ∨
          (0xee ≤ byte.toNat ∧ byte.toNat ≤ 0xef) then
        .ok { remaining := 2 }
      else if byte.toNat = 0xed then .ok { remaining := 2, nextMax := 0x9f }
      else if byte.toNat = 0xf0 then .ok { remaining := 3, nextMin := 0x90 }
      else if 0xf1 ≤ byte.toNat ∧ byte.toNat ≤ 0xf3 then .ok { remaining := 3 }
      else if byte.toNat = 0xf4 then .ok { remaining := 3, nextMax := 0x8f }
      else .error .invalidUtf8 := by
  have hall : ∀ i : Fin 256, ({} : Utf8Validator).feedByte (UInt8.ofNat i.val) =
      if i.val ≤ 0x7f then .ok {}
      else if 0xc2 ≤ i.val ∧ i.val ≤ 0xdf then .ok { remaining := 1 }
      else if i.val = 0xe0 then .ok { remaining := 2, nextMin := 0xa0 }
      else if (0xe1 ≤ i.val ∧ i.val ≤ 0xec) ∨ (0xee ≤ i.val ∧ i.val ≤ 0xef) then
        .ok { remaining := 2 }
      else if i.val = 0xed then .ok { remaining := 2, nextMax := 0x9f }
      else if i.val = 0xf0 then .ok { remaining := 3, nextMin := 0x90 }
      else if 0xf1 ≤ i.val ∧ i.val ≤ 0xf3 then .ok { remaining := 3 }
      else if i.val = 0xf4 then .ok { remaining := 3, nextMax := 0x8f }
      else .error .invalidUtf8 := by
    decide +kernel
  have hbyte := hall ⟨byte.toNat, byte.toNat_lt⟩
  rwa [UInt8.ofNat_toNat] at hbyte

lemma feed_owed (remaining : Nat) (nextMin nextMax : UInt8) {byte : UInt8}
    (hmin : nextMin.toNat ≤ byte.toNat) (hmax : byte.toNat ≤ nextMax.toNat) (rest : Bytes) :
    feed ⟨remaining + 1, nextMin, nextMax⟩ (byte :: rest) = feed { remaining := remaining } rest := by
  rw [feed, feedByte, if_pos (Nat.succ_ne_zero remaining), if_neg]
  · rfl
  · rw [UInt8.lt_iff_toNat_lt]
    exact not_or.mpr ⟨not_lt.mpr hmin, not_lt.mpr hmax⟩

lemma feed_encodes {first : Bytes} (h : Encodes first) (rest : Bytes) :
    ({} : Utf8Validator).feed (first ++ rest) = ({} : Utf8Validator).feed rest := by
  cases h with
  | one ha => simp [feed, feedByte_lead, ha]
  | two ha hb =>
    rw [cons_append, feed, feedByte_lead, if_neg (by omega), if_pos ha]
    exact feed_owed 0 0x80 0xbf hb.1 hb.2 rest
  | @three a b c ha hb hshort hscalar hc =>
    rw [cons_append, feed, feedByte_lead, if_neg (by omega), if_neg (by omega)]
    by_cases he0 : a.toNat = 0xe0
    · rw [if_pos he0]
      exact (feed_owed 1 0xa0 0xbf (hshort he0) hb.2 _).trans (feed_owed 0 0x80 0xbf hc.1 hc.2 rest)
    rw [if_neg he0]
    by_cases hed : a.toNat = 0xed
    · rw [if_neg (by omega), if_pos hed]
      exact (feed_owed 1 0x80 0x9f hb.1 (hscalar hed) _).trans (feed_owed 0 0x80 0xbf hc.1 hc.2 rest)
    · rw [if_pos (by omega)]
      exact (feed_owed 1 0x80 0xbf hb.1 hb.2 _).trans (feed_owed 0 0x80 0xbf hc.1 hc.2 rest)
  | @four a b c d ha hb hshort hlast hc hd =>
    rw [cons_append, feed, feedByte_lead, if_neg (by omega), if_neg (by omega),
      if_neg (by omega), if_neg (by omega), if_neg (by omega)]
    by_cases hf0 : a.toNat = 0xf0
    · rw [if_pos hf0]
      exact (feed_owed 2 0x90 0xbf (hshort hf0) hb.2 _).trans
        ((feed_owed 1 0x80 0xbf hc.1 hc.2 _).trans (feed_owed 0 0x80 0xbf hd.1 hd.2 rest))
    rw [if_neg hf0]
    by_cases hf4 : a.toNat = 0xf4
    · rw [if_neg (by omega), if_pos hf4]
      exact (feed_owed 2 0x80 0x8f hb.1 (hlast hf4) _).trans
        ((feed_owed 1 0x80 0xbf hc.1 hc.2 _).trans (feed_owed 0 0x80 0xbf hd.1 hd.2 rest))
    rw [if_pos (by omega)]
    exact (feed_owed 2 0x80 0xbf hb.1 hb.2 _).trans
      ((feed_owed 1 0x80 0xbf hc.1 hc.2 _).trans (feed_owed 0 0x80 0xbf hd.1 hd.2 rest))

/-- What a validator that owes bytes goes on with, where it ends between characters. -/
theorem owed_of_feed {remaining : Nat} {nextMin nextMax : UInt8} {bytes : Bytes}
    {next : Utf8Validator} (h : feed ⟨remaining + 1, nextMin, nextMax⟩ bytes = (.ok (), next))
    (hnext : next.remaining = 0) :
    ∃ byte rest, bytes = byte :: rest ∧ nextMin.toNat ≤ byte.toNat ∧
      byte.toNat ≤ nextMax.toNat ∧ feed { remaining := remaining } rest = (.ok (), next) := by
  cases bytes with
  | nil =>
    cases h
    cases hnext
  | cons byte rest =>
    rw [feed, feedByte] at h
    by_cases hrange : byte < nextMin ∨ nextMax < byte
    · simp [hrange] at h
    rw [if_neg hrange] at h
    rw [UInt8.lt_iff_toNat_lt, UInt8.lt_iff_toNat_lt] at hrange
    exact ⟨byte, rest, rfl, by omega, by omega, h⟩

/-- A validator that starts and ends between characters has taken one first. -/
theorem encodes_of_feed {bytes : Bytes} {next : Utf8Validator}
    (h : ({} : Utf8Validator).feed bytes = (.ok (), next)) (hnext : next.remaining = 0) :
    bytes = [] ∨ ∃ first rest, bytes = first ++ rest ∧ first ≠ [] ∧ Encodes first ∧
      ({} : Utf8Validator).feed rest = (.ok (), next) := by
  cases bytes with
  | nil => exact .inl rfl
  | cons a bytes =>
    refine .inr ?_
    rw [feed, feedByte_lead] at h
    by_cases hone : a.toNat ≤ 0x7f
    · rw [if_pos hone] at h
      exact ⟨[a], bytes, rfl, cons_ne_nil _ _, .one hone, h⟩
    rw [if_neg hone] at h
    by_cases htwo : 0xc2 ≤ a.toNat ∧ a.toNat ≤ 0xdf
    · rw [if_pos htwo] at h
      obtain ⟨b, rest, rfl, hb, hb', hrest⟩ := owed_of_feed h hnext
      exact ⟨[a, b], rest, rfl, cons_ne_nil _ _, .two htwo ⟨hb, hb'⟩, hrest⟩
    rw [if_neg htwo] at h
    by_cases he0 : a.toNat = 0xe0
    · rw [if_pos he0] at h
      obtain ⟨b, rest, rfl, hb, hb', hrest⟩ := owed_of_feed h hnext
      obtain ⟨c, rest, rfl, hc, hc', hrest⟩ := owed_of_feed hrest hnext
      have hb0 : 0xa0 ≤ b.toNat := hb
      exact ⟨[a, b, c], rest, rfl, cons_ne_nil _ _,
        .three (by omega) ⟨by omega, hb'⟩ (fun _ => hb) (by omega) ⟨hc, hc'⟩, hrest⟩
    rw [if_neg he0] at h
    by_cases hplain : (0xe1 ≤ a.toNat ∧ a.toNat ≤ 0xec) ∨ (0xee ≤ a.toNat ∧ a.toNat ≤ 0xef)
    · rw [if_pos hplain] at h
      obtain ⟨b, rest, rfl, hb, hb', hrest⟩ := owed_of_feed h hnext
      obtain ⟨c, rest, rfl, hc, hc', hrest⟩ := owed_of_feed hrest hnext
      exact ⟨[a, b, c], rest, rfl, cons_ne_nil _ _,
        .three (by omega) ⟨hb, hb'⟩ (by omega) (by omega) ⟨hc, hc'⟩, hrest⟩
    rw [if_neg hplain] at h
    by_cases hed : a.toNat = 0xed
    · rw [if_pos hed] at h
      obtain ⟨b, rest, rfl, hb, hb', hrest⟩ := owed_of_feed h hnext
      obtain ⟨c, rest, rfl, hc, hc', hrest⟩ := owed_of_feed hrest hnext
      have hb0 : b.toNat ≤ 0x9f := hb'
      exact ⟨[a, b, c], rest, rfl, cons_ne_nil _ _,
        .three (by omega) ⟨hb, by omega⟩ (by omega) (fun _ => hb') ⟨hc, hc'⟩, hrest⟩
    rw [if_neg hed] at h
    by_cases hf0 : a.toNat = 0xf0
    · rw [if_pos hf0] at h
      obtain ⟨b, rest, rfl, hb, hb', hrest⟩ := owed_of_feed h hnext
      obtain ⟨c, rest, rfl, hc, hc', hrest⟩ := owed_of_feed hrest hnext
      obtain ⟨d, rest, rfl, hd, hd', hrest⟩ := owed_of_feed hrest hnext
      have hb0 : 0x90 ≤ b.toNat := hb
      exact ⟨[a, b, c, d], rest, rfl, cons_ne_nil _ _,
        .four (by omega) ⟨by omega, hb'⟩ (fun _ => hb) (by omega) ⟨hc, hc'⟩ ⟨hd, hd'⟩, hrest⟩
    rw [if_neg hf0] at h
    by_cases hf1 : 0xf1 ≤ a.toNat ∧ a.toNat ≤ 0xf3
    · rw [if_pos hf1] at h
      obtain ⟨b, rest, rfl, hb, hb', hrest⟩ := owed_of_feed h hnext
      obtain ⟨c, rest, rfl, hc, hc', hrest⟩ := owed_of_feed hrest hnext
      obtain ⟨d, rest, rfl, hd, hd', hrest⟩ := owed_of_feed hrest hnext
      exact ⟨[a, b, c, d], rest, rfl, cons_ne_nil _ _,
        .four (by omega) ⟨hb, hb'⟩ (by omega) (by omega) ⟨hc, hc'⟩ ⟨hd, hd'⟩, hrest⟩
    rw [if_neg hf1] at h
    by_cases hf4 : a.toNat = 0xf4
    · rw [if_pos hf4] at h
      obtain ⟨b, rest, rfl, hb, hb', hrest⟩ := owed_of_feed h hnext
      obtain ⟨c, rest, rfl, hc, hc', hrest⟩ := owed_of_feed hrest hnext
      obtain ⟨d, rest, rfl, hd, hd', hrest⟩ := owed_of_feed hrest hnext
      have hb0 : b.toNat ≤ 0x8f := hb'
      exact ⟨[a, b, c, d], rest, rfl, cons_ne_nil _ _,
        .four (by omega) ⟨hb, by omega⟩ (by omega) (fun _ => hb') ⟨hc, hc'⟩ ⟨hd, hd'⟩, hrest⟩
    · simp [hf4] at h

/-- **The validator ends between characters exactly behind UTF-8.** -/
theorem valid_iff_feed (bytes : Bytes) :
    ValidUtf8 bytes ↔
      ∃ next, ({} : Utf8Validator).feed bytes = (.ok (), next) ∧ next.remaining = 0 := by
  constructor
  · rintro ⟨chars, rfl⟩
    induction chars with
    | nil => exact ⟨{}, rfl, rfl⟩
    | cons c chars ih =>
      rw [flatMap_cons, feed_encodes (encodes_utf8EncodeChar c)]
      exact ih
  rintro ⟨next, h, hnext⟩
  induction hlen : bytes.length using Nat.strongRecOn generalizing bytes with
  | _ n ih =>
    rcases encodes_of_feed h hnext with rfl | ⟨first, rest, rfl, hne, hencodes, hrest⟩
    · exact .nil
    have hpos := length_pos_iff.mpr hne
    rw [length_append] at hlen
    exact hencodes.append (ih rest.length (by omega) rest hrest rfl)

/-- One call for each piece, up to one that fails. -/
def feedAll (validator : Utf8Validator) : List Bytes → Except Error Unit × Utf8Validator
  | [] => (.ok (), validator)
  | chunk :: rest =>
    match validator.feed chunk with
    | (.error e, next) => (.error e, next)
    | (.ok (), next) => next.feedAll rest

lemma feedAll_eq (validator : Utf8Validator) (chunks : List Bytes) :
    validator.feedAll chunks = validator.feed chunks.flatten := by
  induction chunks generalizing validator with
  | nil => rfl
  | cons chunk chunks ih =>
    rw [flatten_cons, feed_append, feedAll]
    cases validator.feed chunk with
    | mk result next =>
      cases result with
      | error e => rfl
      | ok u => exact ih next

/-- **The validator accepts UTF-8, in any pieces.** -/
theorem valid_iff_feedAll (chunks : List Bytes) :
    ValidUtf8 chunks.flatten ↔
      ∃ next, ({} : Utf8Validator).feedAll chunks = (.ok (), next) ∧ next.finish = .ok () := by
  simp [feedAll_eq, valid_iff_feed, finish]

end Utf8Validator

end Netz.WebSocket
