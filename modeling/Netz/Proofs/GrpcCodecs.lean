/-
gRPC's timeouts and status messages are read back.

Each unit is a multiple of the finer ones.  What a duration is rounded up to in the finest unit that
has room for it is therefore the least that any unit can tell: a finer one does not reach it, and
what a coarser one tells, this one could tell as well.
-/
import Netz.Grpc.Wire
import Netz.Lib.Guard
import Netz.Proofs.Http1Chunked

namespace Netz.Grpc

open Lib List
open Http1 (isDigit digitValue ofDigits hexDigit)

namespace Timeout

def Valid (timeout : Timeout) : Prop := timeout.value ≠ 0 ∧ timeout.value ≤ 99999999

lemma init_of_valid {value : Nat} {unit : TimeoutUnit} (h : Valid ⟨value, unit⟩) :
    init value unit = some ⟨value, unit⟩ :=
  if_neg (not_or.mpr ⟨h.1, not_lt.mpr h.2⟩)

lemma within_some {value : Nat} {unit : TimeoutUnit} {found : Option Timeout}
    (h : within value unit = some found) (hvalue : value ≠ 0) :
    Valid ⟨value, unit⟩ ∧ found = some ⟨value, unit⟩ := by
  unfold within at h
  split at h
  · rename_i hle
    cases h
    exact ⟨⟨hvalue, hle⟩, init_of_valid ⟨hvalue, hle⟩⟩
  · cases h

/-! ### Durations -/

lemma units_divide : TimeoutUnit.units.reverse.Pairwise fun fine coarse =>
    fine.nanoseconds ∣ coarse.nanoseconds := by decide

lemma mem_units (unit : TimeoutUnit) : unit ∈ TimeoutUnit.units := by
  cases unit <;> decide

lemma nanoseconds_pos (unit : TimeoutUnit) : 0 < unit.nanoseconds := by
  cases unit <;> decide

/-- The least multiple that is not below `n`. -/
theorem le_ceil_mul {n s : Nat} (hn : 0 < n) (hs : 0 < s) :
    n ≤ ((n - 1) / s + 1) * s ∧ ∀ k, n ≤ k * s → (n - 1) / s + 1 ≤ k := by
  have hmod := Nat.mod_lt (n - 1) hs
  have hdiv := Nat.div_add_mod (n - 1) s
  refine ⟨?_, fun k hk => ?_⟩
  · rw [Nat.add_mul, Nat.mul_comm]
    omega
  · exact (Nat.div_lt_iff_lt_mul hs).mpr (by omega)

/-- **A duration is rounded up to the least that a timeout can tell.** -/
theorem fromDuration_least {nanoseconds : Nat} (hpos : 0 < nanoseconds)
    (hmost : nanoseconds ≤ 99999999 * TimeoutUnit.hour.nanoseconds) :
    ∃ timeout, fromDuration nanoseconds = some timeout ∧ timeout.Valid ∧
      nanoseconds ≤ timeout.duration ∧
      ∀ other : Timeout, other.Valid → nanoseconds ≤ other.duration →
        timeout.duration ≤ other.duration := by
  unfold fromDuration
  rw [if_neg (by omega), Int.toNat_natCast]
  have hdivide := units_divide
  have hall := fun unit => mem_reverse.mpr (mem_units unit)
  cases hexact : TimeoutUnit.units.findSome? (exact nanoseconds) with
  | some found =>
    obtain ⟨unit, -, hunit⟩ := exists_of_findSome?_eq_some hexact
    obtain ⟨hmod, hunit⟩ := of_guard hunit nofun
    have hexactly := Nat.div_mul_cancel (Nat.dvd_of_mod_eq_zero (not_not.mp hmod))
    obtain ⟨hvalid, rfl⟩ := within_some hunit (by
      intro hzero
      rw [hzero] at hexactly
      omega)
    exact ⟨_, rfl, hvalid, Nat.le_of_eq hexactly.symm, fun _ _ hle => Nat.le_trans hexactly.le hle⟩
  | none =>
    cases hrounded : TimeoutUnit.units.reverse.findSome? (rounded nanoseconds) with
    | none =>
      have hhour := findSome?_eq_none_iff.mp hrounded .hour (hall .hour)
      have hceil := (le_ceil_mul hpos (nanoseconds_pos .hour)).2 _ hmost
      exact absurd ((if_pos hceil).symm.trans hhour) nofun
    | some found =>
      obtain ⟨finer, unit, coarser, hsplit, hunit, hnone⟩ := findSome?_eq_some_iff.mp hrounded
      obtain ⟨hvalid, rfl⟩ := within_some hunit (Nat.succ_ne_zero _)
      refine ⟨_, rfl, hvalid, (le_ceil_mul hpos (nanoseconds_pos unit)).1, fun other hother hle => ?_⟩
      rw [hsplit] at hdivide hall
      rcases mem_append.mp (hall other.unit) with hfiner | hcoarser
      · -- The other value would have been within the bound.
        have hleast := (le_ceil_mul hpos (nanoseconds_pos other.unit)).2 _ hle
        exact absurd ((if_pos (hleast.trans hother.2)).symm.trans (hnone _ hfiner)) nofun
      · have hmultiple : unit.nanoseconds ∣ other.unit.nanoseconds := by
          rcases mem_cons.mp hcoarser with hsame | hlater
          · rw [hsame]
          · exact (pairwise_cons.mp (pairwise_append.mp hdivide).2.1).1 _ hlater
        obtain ⟨times, htimes⟩ := hmultiple
        have hother : other.duration = other.value * times * unit.nanoseconds := by
          unfold duration
          rw [htimes, Nat.mul_assoc, Nat.mul_comm times]
        rw [hother] at hle ⊢
        exact Nat.mul_le_mul_right _ ((le_ceil_mul hpos (nanoseconds_pos unit)).2 _ hle)

/-! ### Their rendering -/

lemma digit_spec {value : Nat} (h : value < 10) :
    isDigit (hexDigit value) = true ∧ digitValue (hexDigit value) = some value := by
  have hall : ∀ v : Fin 10, isDigit (hexDigit v.val) = true ∧
      digitValue (hexDigit v.val) = some v.val := by decide
  exact hall ⟨value, h⟩

lemma decimal_spec {room value : Nat} (h : value < 10 ^ (room + 1)) :
    ∃ digits, decimal (room + 1) value = some digits ∧ ofDigits 10 digits = value ∧
      digits.all isDigit = true ∧ 1 ≤ digits.length ∧ digits.length ≤ room + 1 := by
  induction room generalizing value with
  | zero =>
    obtain ⟨hdigit, hvalue⟩ := digit_spec h
    exact ⟨_, if_pos h, by simp [ofDigits, hvalue], by simp [hdigit], le_rfl, le_rfl⟩
  | succ room ih =>
    unfold decimal
    by_cases hsmall : value < 10
    · obtain ⟨hdigit, hvalue⟩ := digit_spec hsmall
      exact ⟨_, if_pos hsmall, by simp [ofDigits, hvalue], by simp [hdigit], le_rfl, by simp⟩
    obtain ⟨digits, hdigits, hof, hall, -, hlength⟩ := @ih (value / 10) (by
      rw [Nat.pow_succ] at h
      omega)
    obtain ⟨hdigit, hvalue⟩ := digit_spec (Nat.mod_lt value (by decide : 0 < 10))
    rw [if_neg hsmall, hdigits]
    refine ⟨_, rfl, ?_, ?_, ?_, ?_⟩
    · rw [Http1.ofDigits_concat, hof, hvalue, Option.getD_some]
      omega
    · simp [hall, hdigit]
    · simp
    · simpa using hlength

/-- **Formatting a timeout and parsing it gives the timeout.** -/
theorem parse_formatInto {timeout : Timeout} (h : timeout.Valid) :
    ∃ raw, timeout.formatInto = some raw ∧ parse raw = some timeout := by
  obtain ⟨digits, hdigits, hof, hall, hpos, hlength⟩ :=
    @decimal_spec 7 _ (Nat.lt_of_le_of_lt h.2 (by decide))
  have hunit : ∀ unit : TimeoutUnit, TimeoutUnit.fromInt? unit.toInt = some unit := by
    intro unit
    cases unit <;> decide
  unfold formatInto
  rw [hdigits]
  refine ⟨_, rfl, ?_⟩
  unfold parse
  rw [if_neg (by rw [length_append, length_singleton]; omega), getLastD_concat,
    hunit, dropLast_concat]
  dsimp only
  rw [if_neg (by omega), hall, hof]
  exact init_of_valid h

end Timeout

/-! ### Status messages -/

lemma percentByte_upperHexDigit (byte : UInt8) :
    percentByte (upperHexDigit (byte >>> 4)) (upperHexDigit (byte &&& 0x0f)) = some byte ∧
      ∀ digit ∈ [upperHexDigit (byte >>> 4), upperHexDigit (byte &&& 0x0f)],
        0x20 ≤ digit ∧ digit ≤ 0x7e := by
  have hall : ∀ n < 256, let b := UInt8.ofNat n
      percentByte (upperHexDigit (b >>> 4)) (upperHexDigit (b &&& 0x0f)) = some b ∧
        [upperHexDigit (b >>> 4), upperHexDigit (b &&& 0x0f)].all
          (fun digit => 0x20 ≤ digit ∧ digit ≤ 0x7e) = true := by
    decide +kernel
  have hbyte := hall byte.toNat byte.toNat_lt
  rw [UInt8.ofNat_toNat] at hbyte
  exact ⟨hbyte.1, fun digit hdigit => of_decide_eq_true (all_eq_true.mp hbyte.2 digit hdigit)⟩

lemma unescaped_spec {byte : UInt8} (h : statusMessageByteUnescaped byte = true) :
    byte ≠ 0x25 ∧ 0x20 ≤ byte ∧ byte ≤ 0x7e := by
  unfold statusMessageByteUnescaped at h
  simp only [Bool.or_eq_true, Bool.and_eq_true, decide_eq_true_eq, UInt8.le_iff_toNat_le] at h
  rw [UInt8.le_iff_toNat_le, UInt8.le_iff_toNat_le, ne_eq, ← UInt8.toNat_inj]
  revert h
  simp
  omega

lemma decodeStatusMessage_cons {byte : UInt8} (h : byte ≠ 0x25) (rest : Bytes) :
    decodeStatusMessage (byte :: rest) = byte :: decodeStatusMessage rest := by
  match rest with
  | [] => rfl
  | [_] => rfl
  | b :: c :: rest =>
    rw [decodeStatusMessage, if_neg h]

/-- **An encoded message is printable, and decoded again.** -/
theorem decodeStatusMessage_encoded {room : Nat} {message encoded : Bytes}
    (h : encodeStatusMessageInto room message = some encoded) :
    decodeStatusMessage encoded = message ∧ ∀ byte ∈ encoded, 0x20 ≤ byte ∧ byte ≤ 0x7e := by
  induction message generalizing room encoded with
  | nil =>
    cases h
    exact ⟨rfl, nofun⟩
  | cons byte rest ih =>
    unfold encodeStatusMessageInto at h
    split at h
    · rename_i hplain
      obtain ⟨hne, hprintable⟩ := unescaped_spec hplain
      obtain ⟨-, h⟩ := of_guard h nofun
      obtain ⟨more, hmore, rfl⟩ := Option.map_eq_some_iff.mp h
      obtain ⟨hdecode, hall⟩ := ih hmore
      rw [decodeStatusMessage_cons hne, hdecode]
      exact ⟨rfl, forall_mem_cons.mpr ⟨hprintable, hall⟩⟩
    · obtain ⟨-, h⟩ := of_guard h nofun
      obtain ⟨more, hmore, rfl⟩ := Option.map_eq_some_iff.mp h
      obtain ⟨hdecode, hall⟩ := ih hmore
      obtain ⟨hbyte, hdigits⟩ := percentByte_upperHexDigit byte
      refine ⟨?_, forall_mem_cons.mpr ⟨by decide, fun b hb => ?_⟩⟩
      · show decodeStatusMessage (0x25 :: _ :: _ :: more) = _
        rw [decodeStatusMessage, if_pos rfl, hbyte, hdecode]
      · rcases mem_append.mp hb with hdigit | hlater
        · exact hdigits b hdigit
        · exact hall b hlater

lemma encodeStatusMessageInto_room {room : Nat} {message : Bytes}
    (h : 3 * message.length ≤ room) : ∃ encoded, encodeStatusMessageInto room message = some encoded := by
  induction message generalizing room with
  | nil => exact ⟨[], rfl⟩
  | cons byte rest ih =>
    rw [length_cons] at h
    unfold encodeStatusMessageInto
    split
    · obtain ⟨encoded, hencoded⟩ := @ih (room - 1) (by omega)
      rw [if_neg (by omega), hencoded]
      exact ⟨_, rfl⟩
    · obtain ⟨encoded, hencoded⟩ := @ih (room - 3) (by omega)
      rw [if_neg (by omega), hencoded]
      exact ⟨_, rfl⟩

/-- **A timeout is the least that is no shorter than its duration, and is read back; so is a status
message, from printable characters.** -/
theorem codecs_sound :
    (∀ nanoseconds : Int, 0 < nanoseconds →
      nanoseconds ≤ 99999999 * TimeoutUnit.hour.nanoseconds →
      ∃ timeout, Timeout.fromDuration nanoseconds = some timeout ∧ timeout.Valid ∧
        nanoseconds ≤ timeout.duration ∧
        ((∃ other : Timeout, other.Valid ∧ (other.duration : Int) = nanoseconds) →
          (timeout.duration : Int) = nanoseconds) ∧
        ∀ other : Timeout, other.Valid →
          ¬ (nanoseconds ≤ other.duration ∧ other.duration < timeout.duration)) ∧
    (∀ timeout : Timeout, timeout.Valid →
      ∃ raw, timeout.formatInto = some raw ∧ Timeout.parse raw = some timeout) ∧
    (∀ (message : Bytes) (room : Nat), 3 * message.length ≤ room →
      ∃ encoded, encodeStatusMessageInto room message = some encoded) ∧
    ∀ (room : Nat) (message encoded : Bytes), encodeStatusMessageInto room message = some encoded →
      decodeStatusMessage encoded = message ∧ ∀ byte ∈ encoded, 0x20 ≤ byte ∧ byte ≤ 0x7e := by
  refine ⟨fun nanoseconds hpos hmost => ?_, fun _ => Timeout.parse_formatInto,
    fun _ _ => encodeStatusMessageInto_room, fun _ _ _ => decodeStatusMessage_encoded⟩
  obtain ⟨n, rfl⟩ := Int.eq_ofNat_of_zero_le (Int.le_of_lt hpos)
  obtain ⟨timeout, hfrom, hvalid, hle, hleast⟩ := @Timeout.fromDuration_least n (by omega)
    (by omega)
  refine ⟨timeout, hfrom, hvalid, by omega, ?_, fun other hother hbetween => ?_⟩
  · rintro ⟨other, hother, hexact⟩
    have hother := hleast other hother (by omega)
    omega
  · have hother := hleast other hother (by omega)
    omega

/-- A duration that only its milliseconds, rounded up, hold in eight digits, and a message of a
percent sign and two bytes of UTF-8. -/
theorem codecs_sound_rounded :
    (∃ timeout, Timeout.fromDuration 123456789012 = some timeout ∧ timeout.Valid ∧
      (123456789012 : Int) ≤ timeout.duration) ∧
    ∃ encoded, encodeStatusMessageInto 9 [0x25, 0xc3, 0xa9] = some encoded ∧
      decodeStatusMessage encoded = [0x25, 0xc3, 0xa9] := by
  obtain ⟨htimeout, -, hroom, hmessage⟩ := codecs_sound
  obtain ⟨timeout, hfrom, hvalid, hle, -⟩ := htimeout 123456789012 (by decide) (by decide)
  obtain ⟨encoded, hencoded⟩ := hroom [0x25, 0xc3, 0xa9] 9 (by decide)
  exact ⟨⟨timeout, hfrom, hvalid, hle⟩, encoded, hencoded, (hmessage _ _ _ hencoded).1⟩

end Netz.Grpc
