/-
When the two key-phase peeks agree.

Both peeks make the same checks and differ only in the mask.  The fast receive path always
takes the AES-128 mask of the key's compatibility view, so it reads what the negotiated
suite wrote only where the two masks agree on the reserved bits and the phase bit.
-/
import Netz.Quic.Protection
import Mathlib.Tactic.Push

namespace Netz.Quic

/-! ### Bits of the first byte -/

lemma and_xor_distrib_right (a b c : UInt8) : (a ^^^ b) &&& c = (a &&& c) ^^^ (b &&& c) := by
  apply UInt8.toNat_inj.mp
  exact Nat.and_xor_distrib_right

lemma and_or_distrib_left (a b c : UInt8) : a &&& (b ||| c) = (a &&& b) ||| (a &&& c) := by
  apply UInt8.toNat_inj.mp
  exact Nat.and_or_distrib_left _ _ _

lemma unmasked_high_bits (first mask bits : UInt8) (h : 0x1f &&& bits = 0) :
    (first ^^^ (mask &&& 0x1f)) &&& bits = first &&& bits := by
  rw [and_xor_distrib_right, UInt8.and_assoc, h, UInt8.and_zero, UInt8.xor_zero]

lemma unmasked_low_bits (first mask bits : UInt8) (h : 0x1f &&& bits = bits) :
    (first ^^^ (mask &&& 0x1f)) &&& bits = (first ^^^ mask) &&& bits := by
  rw [and_xor_distrib_right, UInt8.and_assoc, h, and_xor_distrib_right]

/-- The reserved bits and the phase bit. -/
def phaseBits (byte : UInt8) : UInt8 := byte &&& 0x1c

lemma phaseBits_split (byte : UInt8) : phaseBits byte = (byte &&& 0x18) ||| (byte &&& 0x04) :=
  and_or_distrib_left byte 0x18 0x04

/-- What a peek reads off the byte once the mask is removed. -/
def phaseOfFirst (first : UInt8) : Option Bool :=
  if first &&& 0x18 ≠ 0 then none else some (decide (first &&& 0x04 ≠ 0))

lemma phase_bit_cases (byte : UInt8) : byte &&& 0x04 = 0 ∨ byte &&& 0x04 = 0x04 := by
  have hbits : ∀ v : BitVec 8, v &&& 0x04 = 0 ∨ v &&& 0x04 = 0x04 := by decide
  rcases hbits byte.toBitVec with h | h
  · left
    exact UInt8.toBitVec_inj.mp h
  · right
    exact UInt8.toBitVec_inj.mp h

lemma phaseBits_xor_eq_zero (a b : UInt8) :
    phaseBits (a ^^^ b) = 0 ↔ phaseBits a = phaseBits b := by
  unfold phaseBits
  rw [and_xor_distrib_right, UInt8.xor_eq_zero_iff]

lemma phaseBits_and (byte bits : UInt8) (h : 0x1c &&& bits = bits) :
    phaseBits byte &&& bits = byte &&& bits := by
  unfold phaseBits
  rw [UInt8.and_assoc, h]

lemma phaseOfFirst_eq_iff (a b : UInt8) :
    phaseOfFirst a = phaseOfFirst b ↔
      phaseBits (a ^^^ b) = 0 ∨ (a &&& 0x18 ≠ 0 ∧ b &&& 0x18 ≠ 0) := by
  rw [phaseBits_xor_eq_zero]
  constructor
  · intro heq
    unfold phaseOfFirst at heq
    by_cases ha : a &&& 0x18 = 0
    · by_cases hb : b &&& 0x18 = 0
      · rw [if_neg (not_not.mpr ha), if_neg (not_not.mpr hb)] at heq
        have hphase : a &&& 0x04 = 0 ↔ b &&& 0x04 = 0 := by
          simpa using heq
        left
        rw [phaseBits_split, phaseBits_split, ha, hb]
        rcases phase_bit_cases a with h4 | h4
        · rw [h4, hphase.mp h4]
        have hb4 : b &&& 0x04 ≠ 0 := by
          intro h
          have ha4 := hphase.mpr h
          simp [h4] at ha4
        rcases phase_bit_cases b with h | h
        · exact absurd h hb4
        · rw [h4, h]
      · simp [(not_not.mpr ha), hb] at heq
    by_cases hb : b &&& 0x18 = 0
    · simp [ha, (not_not.mpr hb)] at heq
    · exact .inr ⟨ha, hb⟩
  intro h
  rcases h with h | ⟨ha, hb⟩
  · unfold phaseOfFirst
    rw [← phaseBits_and a 0x18 (by decide), ← phaseBits_and a 0x04 (by decide), h,
      phaseBits_and b 0x18 (by decide), phaseBits_and b 0x04 (by decide)]
  · simp [ha, hb, phaseOfFirst]

/-! ### What a peek computes -/

/-- The checks of a peek that look at no mask. -/
def Peekable (packet : Bytes) (destinationConnectionIdLen : Nat) (allowZeroFixedBit : Bool) :
    Prop :=
  destinationConnectionIdLen ≤ 20 ∧
    1 + destinationConnectionIdLen + 4 + headerProtectionSampleLen ≤ packet.length ∧
    packet.getD 0 0 &&& 0x80 = 0 ∧
    (allowZeroFixedBit = true ∨ packet.getD 0 0 &&& 0x40 ≠ 0)

instance (packet : Bytes) (dcidLen : Nat) (allow : Bool) :
    Decidable (Peekable packet dcidLen allow) := by
  unfold Peekable
  infer_instance

/-- The sample a peek takes. -/
def peekSample (packet : Bytes) (destinationConnectionIdLen : Nat) : HeaderProtectionSample :=
  headerProtectionSample packet (1 + destinationConnectionIdLen + 4)

/-- **One peek, whatever the mask.**  A packet that fails the shared checks is refused, and
any other reads as its first byte does under the mask. -/
theorem peekKeyPhase_toOption (maskOf : HeaderProtectionSample → HeaderProtectionMask)
    (packet : Bytes) (dcidLen : Nat) (allow : Bool) :
    (peekKeyPhase maskOf packet dcidLen allow).toOption = if Peekable packet dcidLen allow then
        phaseOfFirst (packet.getD 0 0 ^^^ (maskOf (peekSample packet dcidLen)).get 0)
      else none := by
  have hsamp : headerProtectionSampleLen = 16 := rfl
  have htag : aeadTagLen = 16 := rfl
  unfold peekKeyPhase
  by_cases hdcid : 20 < dcidLen
  · rw [if_pos hdcid, if_neg (fun h => absurd h.1 (by omega))]
    rfl
  rw [if_neg hdcid]
  by_cases hform : packet.length < 1 + dcidLen + 1 + aeadTagLen ∨
      packet.getD 0 0 &&& 0x80 ≠ 0 ∨ (allow = false ∧ packet.getD 0 0 &&& 0x40 = 0)
  · rw [if_pos hform, if_neg]
    · rfl
    rintro ⟨-, hlen, hlong, hfixed⟩
    rcases hform with h | h | ⟨hallow, hzero⟩
    · omega
    · exact h hlong
    rcases hfixed with h | h
    · simp [hallow] at h
    · exact h hzero
  rw [if_neg hform]
  push Not at hform
  obtain ⟨hlen, hlong, hfixed⟩ := hform
  by_cases hshort : packet.length < 1 + dcidLen + 4 + headerProtectionSampleLen
  · have hnot : ¬Peekable packet dcidLen allow := by
      intro h
      have hsampled := h.2.1
      omega
    simp only [if_pos hshort]
    rw [if_neg hnot]
    rfl
  have hpeek : Peekable packet dcidLen allow := by
    refine ⟨by omega, by omega, hlong, ?_⟩
    by_cases h : allow = true
    · exact .inl h
    · exact .inr (hfixed (by simpa using h))
  rw [if_pos hpeek]
  simp only [if_neg hshort]
  -- The mask leaves the two high bits alone, so they pass the second check as well.
  have hhigh : ∀ mask : UInt8, ¬((packet.getD 0 0 ^^^ (mask &&& 0x1f)) &&& 0x80 ≠ 0 ∨
        (allow = false ∧ (packet.getD 0 0 ^^^ (mask &&& 0x1f)) &&& 0x40 = 0)) := by
    intro mask
    rw [unmasked_high_bits _ _ 0x80 (by decide), unmasked_high_bits _ _ 0x40 (by decide)]
    push Not
    exact ⟨hlong, hfixed⟩
  rw [if_neg (hhigh _)]
  have hget : ∀ mask : HeaderProtectionMask, mask.get 0 = mask[0] := fun _ => rfl
  unfold validateShortHeaderReservedBits phaseOfFirst peekSample
  rw [hget, unmasked_low_bits _ _ 0x18 (by decide), unmasked_low_bits _ _ 0x04 (by decide)]
  by_cases hreserved : (packet.getD 0 0 ^^^
      (maskOf (headerProtectionSample packet (1 + dcidLen + 4)))[0]) &&& 0x18 = 0
  · rw [if_neg (not_not.mpr hreserved), if_neg (not_not.mpr hreserved)]
    rfl
  · rw [if_pos hreserved, if_pos hreserved]
    rfl

/-! ### The two peeks -/

section Peeks

variable (crypto : TrafficCrypto) (keys : PacketProtectionKeys crypto.maxKeyLen)

/-- Both entry points of the fast path report what the keyed peek reports: the same phase, or
a failure together. -/
def PeeksAgree (packet : Bytes) (destinationConnectionIdLen : Nat) (allowZeroFixedBit : Bool) :
    Prop :=
  (crypto.peekShortPacketKeyPhaseForPolicy keys.hp packet destinationConnectionIdLen
      allowZeroFixedBit).toOption =
    (crypto.peekShortPacketKeyPhaseForKeysWithFixedBitPolicy keys packet
      destinationConnectionIdLen allowZeroFixedBit).toOption ∧
  (crypto.peekShortPacketKeyPhaseWithFixedBitPolicy keys.hp packet destinationConnectionIdLen
      allowZeroFixedBit).toOption =
    (crypto.peekShortPacketKeyPhaseForKeysWithFixedBitPolicy keys packet
      destinationConnectionIdLen allowZeroFixedBit).toOption

/-- The suite's mask and the AES-128 mask of the compatibility key are the same on the
reserved bits and the phase bit. -/
def MasksAgree (sample : HeaderProtectionSample) : Prop :=
  phaseBits ((crypto.aes128HeaderProtectionMask keys.hp sample).get 0 ^^^
    (crypto.keyedHeaderProtectionMask keys sample).get 0) = 0

/-- Each of the two masks leaves a reserved bit of the packet set. -/
def BothRefused (packet : Bytes) (destinationConnectionIdLen : Nat) : Prop :=
  (packet.getD 0 0 ^^^
      (crypto.aes128HeaderProtectionMask keys.hp
        (peekSample packet destinationConnectionIdLen)).get 0) &&& 0x18 ≠ 0 ∧
    (packet.getD 0 0 ^^^
      (crypto.keyedHeaderProtectionMask keys
        (peekSample packet destinationConnectionIdLen)).get 0) &&& 0x18 ≠ 0

lemma xor_cancel_first (first a b : UInt8) : (first ^^^ a) ^^^ (first ^^^ b) = a ^^^ b := by
  rw [UInt8.xor_comm first a, UInt8.xor_assoc, ← UInt8.xor_assoc first first b, UInt8.xor_self,
    UInt8.zero_xor]

/-- **One packet.** -/
theorem peeksAgree_iff (packet : Bytes) (dcidLen : Nat) (allow : Bool) :
    PeeksAgree crypto keys packet dcidLen allow ↔ (Peekable packet dcidLen allow →
        MasksAgree crypto keys (peekSample packet dcidLen) ∨
          BothRefused crypto keys packet dcidLen) := by
  unfold PeeksAgree TrafficCrypto.peekShortPacketKeyPhaseForPolicy
    TrafficCrypto.peekShortPacketKeyPhaseWithFixedBitPolicy
    TrafficCrypto.peekShortPacketKeyPhaseForKeysWithFixedBitPolicy MasksAgree BothRefused
  rw [peekKeyPhase_toOption, peekKeyPhase_toOption]
  by_cases hpeek : Peekable packet dcidLen allow
  · simp [hpeek, phaseOfFirst_eq_iff, xor_cancel_first]
  · simp [hpeek]

/-! ### A packet for any sample -/

/-- A packet with an empty connection ID whose sample is `sample`. -/
def samplePacket (first : UInt8) (sample : HeaderProtectionSample) : Bytes :=
  first :: 0 :: 0 :: 0 :: 0 :: sample.toList

lemma samplePacket_sample (first : UInt8) (sample : HeaderProtectionSample) :
    peekSample (samplePacket first sample) 0 = sample := by
  unfold peekSample headerProtectionSample samplePacket
  apply Vector.ext
  intro i hi
  rw [Vector.getElem_ofFn]
  have hidx : 1 + 0 + 4 + i = i + 5 := by omega
  rw [hidx]
  simp [hi]

/-- The first byte whose fixed bit is set and whose masked bits are those of the mask. -/
def firstMaskedBy (mask : UInt8) : UInt8 := 0x40 ^^^ phaseBits mask

lemma peekable_samplePacket (mask : UInt8) (sample : HeaderProtectionSample) (allow : Bool) :
    Peekable (samplePacket (firstMaskedBy mask) sample) 0 allow := by
  have hlen : (samplePacket (firstMaskedBy mask) sample).length = 21 := by
    unfold samplePacket
    simp only [List.length_cons, Vector.length_toList]
    rfl
  have hfirst : (samplePacket (firstMaskedBy mask) sample).getD 0 0 = 0x40 ^^^ phaseBits mask := rfl
  refine ⟨by omega, ?_, ?_, .inr ?_⟩
  · rw [hlen]
    decide
  · rw [hfirst]
    unfold phaseBits
    rw [and_xor_distrib_right, UInt8.and_assoc]
    have hmask : mask &&& (0x1c &&& 0x80) = 0 := UInt8.and_zero
    rw [hmask]
    decide
  rw [hfirst]
  unfold phaseBits
  rw [and_xor_distrib_right, UInt8.and_assoc]
  have hmask : mask &&& (0x1c &&& 0x40) = 0 := UInt8.and_zero
  rw [hmask]
  decide

/-- The byte was masked by `mask`, so under `mask` it shows no reserved bit. -/
theorem samplePacket_unmasked (mask : UInt8) (sample : HeaderProtectionSample) :
    ((samplePacket (firstMaskedBy mask) sample).getD 0 0 ^^^ mask) &&& 0x18 = 0 := by
  have hfirst : (samplePacket (firstMaskedBy mask) sample).getD 0 0 = 0x40 ^^^ phaseBits mask := rfl
  rw [hfirst, and_xor_distrib_right, and_xor_distrib_right, phaseBits_and _ 0x18 (by decide),
    UInt8.xor_assoc, UInt8.xor_self]
  decide

/-- **The peeks agree exactly where the masks do.**  On one packet they agree when it fails
the shared checks, when the masks of its sample carry the same bits, or when both masks leave a
reserved bit; on every packet they agree only for keys whose masks carry the same bits for
every sample. -/
theorem key_phase_peeks_agree_iff_masks_do :
    (∀ packet dcidLen allow, PeeksAgree crypto keys packet dcidLen allow ↔
        (Peekable packet dcidLen allow → MasksAgree crypto keys (peekSample packet dcidLen) ∨
            BothRefused crypto keys packet dcidLen)) ∧
      ((∀ packet dcidLen allow, PeeksAgree crypto keys packet dcidLen allow) ↔
        ∀ sample, MasksAgree crypto keys sample) := by
  refine ⟨peeksAgree_iff crypto keys, ?_⟩
  constructor
  · intro hall sample
    have hone := (peeksAgree_iff crypto keys _ 0 true).mp
      (hall (samplePacket
        (firstMaskedBy ((crypto.keyedHeaderProtectionMask keys sample).get 0)) sample) 0 true)
      (peekable_samplePacket _ sample true)
    rw [samplePacket_sample] at hone
    rcases hone with h | h
    · exact h
    unfold BothRefused at h
    rw [samplePacket_sample] at h
    exact absurd (samplePacket_unmasked _ sample) h.2
  intro hmasks packet dcidLen allow
  rw [peeksAgree_iff]
  intro _
  exact .inl (hmasks _)

end Peeks

/-! ### ChaCha20 keys -/

/-- The header protection key of a ChaCha20 packet. -/
def chachaHp : Vector UInt8 32 :=
  #v[0x25, 0xa2, 0x82, 0xb9, 0xe8, 0x2f, 0x06, 0xf2, 0x1f, 0x48, 0x89, 0x17, 0xa4, 0xfc, 0x8f,
    0x1b, 0x73, 0x57, 0x36, 0x85, 0x60, 0x85, 0x97, 0xd0, 0xef, 0xcb, 0x07, 0x6b, 0x0a, 0xb7,
    0xa7, 0xa4]

/-- Its first sixteen bytes, which the AES-128 view holds. -/
def chachaHpView : Vector UInt8 hpKeyLen :=
  #v[0x25, 0xa2, 0x82, 0xb9, 0xe8, 0x2f, 0x06, 0xf2, 0x1f, 0x48, 0x89, 0x17, 0xa4, 0xfc, 0x8f,
    0x1b]

/-- The packet that the keys sealed. -/
def chachaPacket : Bytes :=
  [0x4c, 0xfe, 0x41, 0x89, 0x65, 0x5e, 0x5c, 0xd5, 0x5c, 0x41, 0xf6, 0x90, 0x80, 0x57, 0x5d,
    0x79, 0x99, 0xc2, 0x5a, 0x5b, 0xfb]

/-- The masks of the packet's sample: ChaCha20 under the whole key, AES-128 under the view. -/
def sampledCrypto : TrafficCrypto where
  maxKeyLen := 32
  headerProtectionMask := fun suite _ _ =>
    if suite = .chacha20Poly1305Sha256 then #v[0xae, 0xfe, 0xfe, 0x7d, 0x03]
    else #v[0x02, 0x47, 0x37, 0xbe, 0x5a]

def chachaKeys : PacketProtectionKeys sampledCrypto.maxKeyLen where
  suite := .chacha20Poly1305Sha256
  hp := chachaHpView
  suiteHp := chachaHp

/-- The keyed peek reads phase 0 where the fast path refuses the packet. -/
theorem chacha_packet_is_refused_by_fast_path :
    ¬ ∀ (crypto : TrafficCrypto) (keys : PacketProtectionKeys crypto.maxKeyLen) packet dcidLen
        allow, PeeksAgree crypto keys packet dcidLen allow := by
  intro h
  have hagree := (h sampledCrypto chachaKeys chachaPacket 0 false).1
  have hkeyed : (sampledCrypto.peekShortPacketKeyPhaseForKeysWithFixedBitPolicy chachaKeys
      chachaPacket 0 false).toOption = some false := by decide
  have hfast : (sampledCrypto.peekShortPacketKeyPhaseForPolicy chachaKeys.hp chachaPacket 0
      false).toOption = none := by decide
  simp [hkeyed, hfast] at hagree

end Netz.Quic
