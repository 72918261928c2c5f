/-
A receiver recovers the packet number that the sender truncated.

The bytes on the wire are the packet number modulo a window.  The receiver takes the number
of that residue which lies within half a window of the one it expects, and the length the
sender picks keeps every number a receiver may expect within that half.
-/
import Netz.Quic.Protection
import Netz.Lib.BigEndian
import Mathlib.Data.Nat.Bitwise

namespace Netz.Quic

open Lib List

/-! ### The bytes on the wire -/

lemma length_writeTruncated (len packetNumber : Nat) :
    (writeTruncatedPacketNumberAssumeValid len packetNumber).length = len := by
  unfold writeTruncatedPacketNumberAssumeValid
  rw [length_map, length_range]

lemma writeTruncated_eq_bigEndian (packetNumber : Nat) :
    ∀ len, writeTruncatedPacketNumberAssumeValid len packetNumber = bigEndian len packetNumber := by
  intro len
  induction len with
  | zero => rfl
  | succ n ih =>
    have htail : ∀ index ∈ range n,
        UInt8.ofNat (packetNumber >>> ((n + 1 - 1) * 8 - (index + 1) * 8)) =
          UInt8.ofNat (packetNumber >>> ((n - 1) * 8 - index * 8)) := by
      intro index hidx
      have hlt : index < n := mem_range.mp hidx
      have hshift : (n + 1 - 1) * 8 - (index + 1) * 8 = (n - 1) * 8 - index * 8 := by omega
      rw [hshift]
    have hhead : packetNumber >>> ((n + 1 - 1) * 8 - 0 * 8) = packetNumber / 256 ^ n := by
      rw [Nat.shiftRight_eq_div_pow]
      have hpow : (256 : Nat) ^ n = 2 ^ (8 * n) := by rw [Nat.pow_mul]
      rw [hpow]
      congr 2
      omega
    unfold writeTruncatedPacketNumberAssumeValid at ih ⊢
    rw [bigEndian, ← ih, range_succ_eq_map, map_cons, hhead, map_map]
    congr 1
    exact map_congr_left htail

/-- Shifting a byte in is appending a digit. -/
theorem truncated_eq_ofBigEndian (bytes : Bytes) :
    truncatedPacketNumber bytes = ofBigEndian bytes := by
  unfold truncatedPacketNumber ofBigEndian
  congr 1
  funext truncated byte
  have hbyte : byte.toNat < 2 ^ 8 := byte.toNat_lt
  rw [← Nat.shiftLeft_add_eq_or_of_lt hbyte, Nat.shiftLeft_eq]

lemma truncated_write (len packetNumber : Nat) :
    truncatedPacketNumber (writeTruncatedPacketNumberAssumeValid len packetNumber) =
      packetNumber % 2 ^ (len * 8) := by
  rw [truncated_eq_ofBigEndian, writeTruncated_eq_bigEndian, ofBigEndian_bigEndian]
  have hpow : (256 : Nat) ^ len = 2 ^ (len * 8) := by rw [Nat.mul_comm, Nat.pow_mul]
  rw [hpow]

/-! ### The number the receiver settles on -/

variable {expected pn len : Nat} {largestAcknowledged : Option Nat}

/-- Replacing the low bits of the expected number misses by at most one window. -/
theorem candidate_cases {win hwin : Nat} (hwin2 : win = 2 * hwin) (hpos : 0 < hwin)
    (hlow : expected < pn + hwin) (hhigh : pn ≤ expected + hwin) :
    expected / win * win + pn % win = pn ∨
      expected / win * win + pn % win + win = pn ∨ expected / win * win + pn % win = pn + win := by
  have hwinpos : 0 < win := by omega
  have hpn : pn / win * win + pn % win = pn := by
    rw [Nat.mul_comm]
    exact Nat.div_add_mod pn win
  have hexp : expected / win * win + expected % win = expected := by
    rw [Nat.mul_comm]
    exact Nat.div_add_mod expected win
  have hpnlt : pn % win < win := Nat.mod_lt pn hwinpos
  have hexplt : expected % win < win := Nat.mod_lt expected hwinpos
  have hnext : ∀ a : Nat, (a + 1) * win = a * win + win := fun a => Nat.succ_mul a win
  rcases Nat.lt_trichotomy (expected / win) (pn / win) with h | h | h
  · -- The numbers lie within two windows of each other, so the quotients are adjacent.
    have hstep : pn / win = expected / win + 1 := by
      by_contra hne
      have hfar : expected / win + 2 ≤ pn / win := by omega
      have hmul := Nat.mul_le_mul_right win hfar
      have htwo : (expected / win + 2) * win = expected / win * win + win + win := by
        rw [hnext, hnext]
      omega
    have heq := hnext (expected / win)
    rw [← hstep] at heq
    right
    left
    omega
  · simp [h, hpn]
  have hstep : expected / win = pn / win + 1 := by
    by_contra hne
    have hfar : pn / win + 2 ≤ expected / win := by omega
    have hmul := Nat.mul_le_mul_right win hfar
    have htwo : (pn / win + 2) * win = pn / win * win + win + win := by
      rw [hnext, hnext]
    omega
  have heq := hnext (pn / win)
  rw [← hstep] at heq
  omega

lemma candidate_eq_div (expected nbits pn : Nat) :
    (expected >>> nbits <<< nbits) ||| (pn % 2 ^ nbits) =
      expected / 2 ^ nbits * 2 ^ nbits + pn % 2 ^ nbits := by
  have hlt : pn % 2 ^ nbits < 2 ^ nbits := Nat.mod_lt pn (Nat.two_pow_pos nbits)
  rw [← Nat.shiftLeft_add_eq_or_of_lt hlt, Nat.shiftLeft_eq, Nat.shiftRight_eq_div_pow]

/-- Half of the window that `len` bytes span. -/
def halfWindow (len : Nat) : Nat := 2 ^ (len * 8) / 2

lemma halfWindow_pos (h : 1 ≤ len) : 0 < halfWindow len := by
  have hpow : 2 ^ 1 ≤ 2 ^ (len * 8) := Nat.pow_le_pow_right (by omega) (by omega)
  unfold halfWindow
  omega

lemma window_eq_two_halves (h : 1 ≤ len) : 2 ^ (len * 8) = 2 * halfWindow len := by
  have hsplit : len * 8 = len * 8 - 1 + 1 := by omega
  unfold halfWindow
  rw [hsplit]
  omega

lemma halfWindow_le (h : len ≤ 4) : halfWindow len ≤ 2 ^ 31 := by
  have hpow : 2 ^ (len * 8) ≤ 2 ^ 32 := Nat.pow_le_pow_right (by omega) (by omega)
  unfold halfWindow
  omega

lemma closestCandidate_eq {win hwin candidate : Nat} (hwin2 : win = 2 * hwin) (hpos : 0 < hwin)
    (hsmall : hwin ≤ 2 ^ 31) (hpn : pn ≤ maxPacketNumber)
    (hexp : expected ≤ maxPacketNumber + 1) (hlow : expected < pn + hwin)
    (hhigh : pn ≤ expected + hwin)
    (hcandidate : candidate = pn ∨ candidate + win = pn ∨ candidate = pn + win) :
    closestCandidate expected win candidate = .ok pn := by
  have hmax : maxPacketNumber = 2 ^ 62 - 1 := rfl
  have hu64 : maxU64 = 2 ^ 64 - 1 := rfl
  have hhalf : win / 2 = hwin := by omega
  have hadd : saturatingAdd candidate hwin = candidate + hwin := by
    unfold saturatingAdd
    omega
  have hadd' : saturatingAdd expected hwin = expected + hwin := by
    unfold saturatingAdd
    omega
  unfold closestCandidate
  simp only [hhalf, hadd']
  rcases hcandidate with h | h | h
  · rw [if_neg (by omega), if_neg (by omega), h]
  · have hchecked : checkedAdd candidate win = some pn := by
      unfold checkedAdd
      rw [if_pos (by omega), h]
    rw [if_pos (by omega), hchecked]
  · have hback : candidate - win = pn := by omega
    rw [if_neg (by omega), if_pos (by omega), hback]

/-- **A number within half a window of the expected one is recovered.** -/
theorem reconstruct_of_near (hlen : 1 ≤ len) (hlen4 : len ≤ 4) (hpn : pn ≤ maxPacketNumber)
    (hexp : expected ≤ maxPacketNumber + 1) (hlow : expected < pn + halfWindow len)
    (hhigh : pn ≤ expected + halfWindow len) :
    reconstructPacketNumber expected (writeTruncatedPacketNumberAssumeValid len pn) = .ok pn := by
  have hwin := window_eq_two_halves hlen
  have hcases := candidate_cases hwin (halfWindow_pos hlen) hlow hhigh
  unfold reconstructPacketNumber
  rw [length_writeTruncated, if_neg (by omega), if_neg (by omega), truncated_write]
  simp only [candidate_eq_div, Nat.one_shiftLeft]
  rw [closestCandidate_eq hwin (halfWindow_pos hlen) (halfWindow_le hlen4) hpn hexp hlow
    hhigh hcases]
  exact if_neg (by omega)

/-- Nothing is recovered past the number after the last one. -/
theorem reconstruct_refuses (pn : Nat) (hlen : 1 ≤ len) (hlen4 : len ≤ 4)
    (hexp : maxPacketNumber + 1 < expected) :
    reconstructPacketNumber expected (writeTruncatedPacketNumberAssumeValid len pn) =
      .error .invalidPacketNumber := by
  unfold reconstructPacketNumber
  rw [length_writeTruncated, if_neg (by omega), if_pos hexp]

/-! ### The length the sender picks -/

lemma lt_two_pow_significantBits (n : Nat) : n < 2 ^ significantBits n := by
  unfold significantBits
  by_cases h : n = 0
  · simp [h]
  · rw [if_neg h]
    exact Nat.lt_log2_self

lemma significantBits_le {n bits : Nat} (h : n < 2 ^ bits) : significantBits n ≤ bits := by
  unfold significantBits
  by_cases hn : n = 0
  · simp [hn]
  · rw [if_neg hn]
    exact (Nat.log2_lt hn).mpr h

/-- How many packets the sender counts as outstanding. -/
def outstandingPackets (packetNumber : Nat) : Option Nat → Nat
  | some largest => packetNumber - largest
  | none => packetNumber + 1

@[simp] lemma outstandingPackets_some (packetNumber largest : Nat) :
    outstandingPackets packetNumber (some largest) = packetNumber - largest := rfl

@[simp] lemma outstandingPackets_none (packetNumber : Nat) :
    outstandingPackets packetNumber none = packetNumber + 1 := rfl

lemma packetNumberLen_bounds (pn : Nat) (largestAcknowledged : Option Nat) :
    1 ≤ packetNumberLen pn largestAcknowledged ∧ packetNumberLen pn largestAcknowledged ≤ 4 := by
  unfold packetNumberLen
  simp

lemma packetNumberLenForPayload_bounds (pn : Nat) (largestAcknowledged : Option Nat)
    (payloadLen : Nat) :
    packetNumberLen pn largestAcknowledged ≤
        packetNumberLenForPayload pn largestAcknowledged payloadLen ∧
      1 ≤ packetNumberLenForPayload pn largestAcknowledged payloadLen ∧
      packetNumberLenForPayload pn largestAcknowledged payloadLen ≤ 4 := by
  have hadaptive := packetNumberLen_bounds pn largestAcknowledged
  have hminimum : minimumPacketNumberLenForHeaderProtection payloadLen ≤ 4 := by
    unfold minimumPacketNumberLenForHeaderProtection
    split <;> omega
  unfold packetNumberLenForPayload
  omega

/-- The bit past those of the outstanding count leaves half a window for them. -/
theorem outstanding_lt_halfWindow (hout : outstandingPackets pn largestAcknowledged < 2 ^ 31)
    (payloadLen : Nat) :
    outstandingPackets pn largestAcknowledged <
      halfWindow (packetNumberLenForPayload pn largestAcknowledged payloadLen) := by
  have hbounds := packetNumberLenForPayload_bounds pn largestAcknowledged payloadLen
  have hbits := significantBits_le hout
  have hbytes : (significantBits (outstandingPackets pn largestAcknowledged) + 1) ≤
      packetNumberLen pn largestAcknowledged * 8 := by
    unfold packetNumberLen
    cases largestAcknowledged with
    | none =>
      have hsat : saturatingAdd pn 1 = pn + 1 := by
        rw [outstandingPackets_none] at hout
        unfold saturatingAdd maxU64
        omega
      simp only [hsat, outstandingPackets_none] at hbits ⊢
      omega
    | some largest =>
      simp only [outstandingPackets_some] at hbits ⊢
      omega
  have hpow : 2 ^ (significantBits (outstandingPackets pn largestAcknowledged) + 1) ≤
      2 ^ (packetNumberLenForPayload pn largestAcknowledged payloadLen * 8) :=
    Nat.pow_le_pow_right (by omega) (by omega)
  have hself := lt_two_pow_significantBits (outstandingPackets pn largestAcknowledged)
  unfold halfWindow
  omega

/-! ### The sender and any receiver -/

/-- The number is past the acknowledged ones, and fewer than `2^31` are outstanding. -/
def Outstanding (packetNumber : Nat) (largestAcknowledged : Option Nat) : Prop :=
  (∀ largest, largestAcknowledged = some largest → largest < packetNumber) ∧
    outstandingPackets packetNumber largestAcknowledged < 2 ^ 31

/-- What a receiver of the packet can expect: it holds what the sender knows to be
acknowledged, and nothing that was not sent. -/
def MayExpect (packetNumber : Nat) (largestAcknowledged : Option Nat) (expected : Nat) : Prop :=
  (∀ largest, largestAcknowledged = some largest → largest < expected) ∧
    expected ≤ packetNumber + 1

lemma reconstruct_of_mayExpect (hpn : pn ≤ maxPacketNumber) (payloadLen : Nat)
    (hout : Outstanding pn largestAcknowledged)
    (hexpect : MayExpect pn largestAcknowledged expected) :
    reconstructPacketNumber expected (writeTruncatedPacketNumberAssumeValid
          (packetNumberLenForPayload pn largestAcknowledged payloadLen) pn) = .ok pn := by
  obtain ⟨hmax, hcount⟩ := hout
  obtain ⟨hpast, hnext⟩ := hexpect
  obtain ⟨-, hlen, hlen4⟩ := packetNumberLenForPayload_bounds pn largestAcknowledged payloadLen
  have hhalf := outstanding_lt_halfWindow hcount payloadLen
  have hone : 1 ≤ outstandingPackets pn largestAcknowledged := by
    cases largestAcknowledged with
    | none => simp
    | some largest =>
      have hlt := hmax largest rfl
      rw [outstandingPackets_some]
      omega
  have hhigh : pn ≤ expected + outstandingPackets pn largestAcknowledged := by
    cases largestAcknowledged with
    | none =>
      rw [outstandingPackets_none]
      omega
    | some largest =>
      have hlt := hpast largest rfl
      rw [outstandingPackets_some]
      omega
  exact reconstruct_of_near hlen hlen4 hpn (by omega) (by omega) (by omega)

/-- **Truncation loses nothing.**  Whatever a receiver of the packet may expect, it recovers
the number, and so does any expectation within half a window that is itself a packet number
or the one after the last. -/
theorem truncated_packet_number_is_recovered (pn : Nat) (hpn : pn ≤ maxPacketNumber) :
    (∀ largestAcknowledged payloadLen expected, Outstanding pn largestAcknowledged →
        MayExpect pn largestAcknowledged expected → reconstructPacketNumber expected
            (writeTruncatedPacketNumberAssumeValid
              (packetNumberLenForPayload pn largestAcknowledged payloadLen) pn) = .ok pn) ∧
      (∀ len expected, 1 ≤ len → len ≤ 4 → expected ≤ maxPacketNumber + 1 →
        expected < pn + halfWindow len → pn ≤ expected + halfWindow len →
        reconstructPacketNumber expected (writeTruncatedPacketNumberAssumeValid len pn) = .ok pn) ∧
      (∀ len expected, 1 ≤ len → len ≤ 4 → maxPacketNumber + 1 < expected →
        reconstructPacketNumber expected (writeTruncatedPacketNumberAssumeValid len pn) =
          .error .invalidPacketNumber) := by
  refine ⟨?_, ?_, ?_⟩
  · intro largestAcknowledged payloadLen expected hout hexpect
    exact reconstruct_of_mayExpect hpn payloadLen hout hexpect
  · intro len expected hlen hlen4 hexpected hlow hhigh
    exact reconstruct_of_near hlen hlen4 hpn hexpected hlow hhigh
  · intro len expected hlen hlen4 hexpected
    exact reconstruct_refuses pn hlen hlen4 hexpected

theorem truncated_packet_number_is_recovered_at_last :
    maxPacketNumber ≤ maxPacketNumber ∧
      reconstructPacketNumber (maxPacketNumber + 1)
          (writeTruncatedPacketNumberAssumeValid 2 maxPacketNumber) = .ok maxPacketNumber :=
  ⟨le_rfl,
    (truncated_packet_number_is_recovered maxPacketNumber le_rfl).2.1 2
      (maxPacketNumber + 1) (by decide) (by decide) le_rfl (by decide) (by decide)⟩

/-- Half a window past the last packet number, the receiver refuses instead. -/
theorem expectation_past_the_last_is_refused :
    ¬ ∀ pn len expected, pn ≤ maxPacketNumber → 1 ≤ len → len ≤ 4 →
      expected < pn + halfWindow len → pn ≤ expected + halfWindow len →
      reconstructPacketNumber expected (writeTruncatedPacketNumberAssumeValid len pn) = .ok pn := by
  intro h
  have hfar := h maxPacketNumber 1 (maxPacketNumber + 2) le_rfl (by decide) (by decide)
    (by decide) (by decide)
  have hrefused : reconstructPacketNumber (maxPacketNumber + 2)
      (writeTruncatedPacketNumberAssumeValid 1 maxPacketNumber) = .error .invalidPacketNumber :=
    reconstruct_refuses maxPacketNumber (by decide) (by decide)
      (Nat.lt_succ_self (maxPacketNumber + 1))
  simp [hrefused] at hfar

end Netz.Quic
