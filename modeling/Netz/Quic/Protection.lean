/-
The sizes and headers of protected 1-RTT packets, and the generations of the keys that
protect them (`quic/protection.zig`).

The AEAD itself is not modelled.  What it is given is: a `ShortPacket` is one call of
`sealShortPacketInto`, with the generation of the keys, the packet number that makes the
nonce, the header bits and the plaintext.
-/
import Netz.Quic.Frame

namespace Netz.Quic

/-- `protection.aead_tag_len`. -/
def aeadTagLen : Nat := 16

/-- `protection.max_packet_number`. -/
def maxPacketNumber : Nat := varintMax

/-- `@bitSizeOf(u64) - @clz(n)`. -/
def significantBits (n : Nat) : Nat := if n = 0 then 0 else Nat.log2 n + 1

/-- The shortest encoding that can tell more than twice the outstanding packets apart. -/
def packetNumberLen (packetNumber : Nat) (largestAcknowledged : Option Nat) : Nat :=
  let outstanding :=
    match largestAcknowledged with
    | some largest => packetNumber - largest
    | none => saturatingAdd packetNumber 1
  let requiredBits := significantBits outstanding + 1
  min (max 1 ((requiredBits + 7) / 8)) 4

/-- The header protection sample starts four bytes after the packet number does. -/
def minimumPacketNumberLenForHeaderProtection (payloadLen : Nat) : Nat :=
  if 3 ≤ payloadLen then 1 else 4 - payloadLen

def packetNumberLenForPayload (packetNumber : Nat) (largestAcknowledged : Option Nat)
    (payloadLen : Nat) : Nat :=
  max (packetNumberLen packetNumber largestAcknowledged)
    (minimumPacketNumberLenForHeaderProtection payloadLen)

/-! ### Truncated packet numbers -/

/-- `writeTruncatedPacketNumberAssumeValid` over an output of `len` bytes. -/
def writeTruncatedPacketNumberAssumeValid (len packetNumber : Nat) : Bytes :=
  (List.range len).map fun index => UInt8.ofNat (packetNumber >>> ((len - 1) * 8 - index * 8))

/-- The integer that the truncated bytes spell. -/
def truncatedPacketNumber (packetNumberBytes : Bytes) : Nat :=
  packetNumberBytes.foldl (fun truncated byte => (truncated <<< 8) ||| byte.toNat) 0

/-- Move the candidate by one window when that brings it closer to the expected number. -/
def closestCandidate (expectedPacketNumber pnWin candidate : Nat) : Except Error Nat :=
  let pnHwin := pnWin / 2
  if saturatingAdd candidate pnHwin ≤ expectedPacketNumber then
    match checkedAdd candidate pnWin with
    | none => .error .invalidPacketNumber
    | some next => .ok next
  else if saturatingAdd expectedPacketNumber pnHwin < candidate ∧ pnWin ≤ candidate then
    .ok (candidate - pnWin)
  else .ok candidate

/-- The full packet number that is closest to the expected one. -/
def reconstructPacketNumber (expectedPacketNumber : Nat) (packetNumberBytes : Bytes) :
    Except Error Nat :=
  if packetNumberBytes.length = 0 ∨ 4 < packetNumberBytes.length then
    .error .invalidPacketNumberLength
  else if maxPacketNumber + 1 < expectedPacketNumber then .error .invalidPacketNumber
  else
    let truncated := truncatedPacketNumber packetNumberBytes
    let pnNbits := packetNumberBytes.length * 8
    let pnWin := 1 <<< pnNbits
    -- `expected_packet_number & ~pn_mask`
    let candidate := (expectedPacketNumber >>> pnNbits <<< pnNbits) ||| truncated
    match closestCandidate expectedPacketNumber pnWin candidate with
    | .error e => .error e
    | .ok candidate =>
      if maxPacketNumber < candidate then .error .invalidPacketNumber else .ok candidate

/-- What one sealing operation is given. -/
structure ShortPacket where
  keyGeneration : Nat
  destinationConnectionId : Bytes
  packetNumber : Nat
  packetNumberLen : Nat
  fixedBit : Bool
  spinBit : Bool
  keyPhase : Bool
  payload : Bytes
deriving DecidableEq

namespace ShortPacket

/-- What a packet is longer than its payload: the first byte, the connection ID, the packet
number and the tag. -/
def overhead (p : ShortPacket) : Nat :=
  1 + p.packetNumberLen + p.destinationConnectionId.length + aeadTagLen

/-- The length of the protected datagram. -/
def length (p : ShortPacket) : Nat := p.overhead + p.payload.length

end ShortPacket

/-- The length of a short-header packet, once its packet number and connection ID are valid. -/
def shortPacketLen (destinationConnectionId : Bytes) (packetNumber packetNumberLen : Nat)
    (payload : Bytes) : Except Error Nat :=
  if packetNumberLen = 0 ∨ 4 < packetNumberLen then .error .invalidPacketNumberLength
  else if maxPacketNumber < packetNumber then .error .invalidPacketNumber
  else if 20 < destinationConnectionId.length then .error .invalidInitialPacket
  else
    .ok (1 + packetNumberLen + destinationConnectionId.length + aeadTagLen + payload.length)

/-- `KeyPhaseState`: the current keys are those of generation `keyUpdateCount`. -/
structure KeyPhaseState where
  keyUpdateCount : Nat := 0
  currentKeyPhase : Bool := false

/-- `advance`: the next generation of keys, under the other phase bit. -/
def KeyPhaseState.initiateKeyUpdate (k : KeyPhaseState) : KeyPhaseState where
  keyUpdateCount := k.keyUpdateCount + 1
  currentKeyPhase := !k.currentKeyPhase

end Netz.Quic

/-! ### Reading the key phase of a short packet through its header protection
(`quic/protection.zig`).

The masks come from the traffic-crypto package, which is not part of the repository; a
`TrafficCrypto` is what the module uses of it. -/

namespace Netz.Quic

/-- `traffic_crypto.Suite`. -/
inductive CipherSuite where
  | aes128GcmSha256
  | aes256GcmSha384
  | chacha20Poly1305Sha256
  | sm4GcmSm3
deriving DecidableEq

/-- `protection.hp_key_len`. -/
def hpKeyLen : Nat := 16

/-- `protection.header_protection_sample_len`. -/
def headerProtectionSampleLen : Nat := 16

abbrev HeaderProtectionSample := Vector UInt8 headerProtectionSampleLen

/-- One byte for the header and one for each byte of a packet number. -/
abbrev HeaderProtectionMask := Vector UInt8 5

/-- `traffic_crypto`: the mask depends on the suite, the header protection key and the sample. -/
structure TrafficCrypto where
  maxKeyLen : Nat
  headerProtectionMask :
    CipherSuite → Vector UInt8 maxKeyLen → HeaderProtectionSample → HeaderProtectionMask

/-- The header protection fields of `PacketProtectionKeys`. -/
structure PacketProtectionKeys (maxKeyLen : Nat) where
  suite : CipherSuite := .aes128GcmSha256
  -- the AES-128 view
  hp : Vector UInt8 hpKeyLen
  -- canonical storage, sized for the largest suite
  suiteHp : Vector UInt8 maxKeyLen := Vector.replicate maxKeyLen 0

/-- `storage[0..hp_key_len].* = hp_key` -/
def withHpKey {n : Nat} (storage : Vector UInt8 n) (hpKey : Vector UInt8 hpKeyLen) :
    Vector UInt8 n :=
  Vector.ofFn fun i => if h : i.val < hpKeyLen then hpKey[i.val] else storage[i.val]

/-- The `hp` of `asVailKeys`. -/
def PacketProtectionKeys.vailHp {n : Nat} (keys : PacketProtectionKeys n) : Vector UInt8 n :=
  if keys.suite = .aes128GcmSha256 then withHpKey keys.suiteHp keys.hp else keys.suiteHp

/-- The sixteen bytes of the packet from `offset` on. -/
def headerProtectionSample (packet : Bytes) (offset : Nat) : HeaderProtectionSample :=
  Vector.ofFn fun i => packet.getD (offset + i.val) 0

def validateShortHeaderReservedBits (firstByte : UInt8) : Except Error Unit :=
  if firstByte &&& 0x18 ≠ 0 then .error .invalidInitialPacket else .ok ()

/-- The body that the two peeks share; they differ in where the mask comes from. -/
def peekKeyPhase (maskOf : HeaderProtectionSample → HeaderProtectionMask) (packet : Bytes)
    (destinationConnectionIdLen : Nat) (allowZeroFixedBit : Bool) : Except Error Bool :=
  if 20 < destinationConnectionIdLen then .error .invalidInitialPacket
  else if packet.length < 1 + destinationConnectionIdLen + 1 + aeadTagLen ∨
      packet.getD 0 0 &&& 0x80 ≠ 0 ∨
      (allowZeroFixedBit = false ∧ packet.getD 0 0 &&& 0x40 = 0) then
    .error .invalidInitialPacket
  else
    let pnOffset := 1 + destinationConnectionIdLen
    if packet.length < pnOffset + 4 + headerProtectionSampleLen then
      .error .invalidHeaderProtectionSample
    else
      let mask := maskOf (headerProtectionSample packet (pnOffset + 4))
      let first := packet.getD 0 0 ^^^ (mask[0] &&& 0x1f)
      if first &&& 0x80 ≠ 0 ∨ (allowZeroFixedBit = false ∧ first &&& 0x40 = 0) then
        .error .invalidInitialPacket
      else
        match validateShortHeaderReservedBits first with
        | .error e => .error e
        | .ok () => .ok (decide (first &&& 0x04 ≠ 0))

namespace TrafficCrypto

variable (crypto : TrafficCrypto)

/-- `aes128HeaderProtectionMask`: the key is extended by zeros. -/
def aes128HeaderProtectionMask (hpKey : Vector UInt8 hpKeyLen)
    (sample : HeaderProtectionSample) : HeaderProtectionMask :=
  crypto.headerProtectionMask .aes128GcmSha256
    (withHpKey (Vector.replicate crypto.maxKeyLen 0) hpKey) sample

/-- `asVailKeys(keys).headerProtectionMask(sample)` -/
def keyedHeaderProtectionMask (keys : PacketProtectionKeys crypto.maxKeyLen)
    (sample : HeaderProtectionSample) : HeaderProtectionMask :=
  crypto.headerProtectionMask keys.suite keys.vailHp sample

def peekShortPacketKeyPhaseForKeysWithFixedBitPolicy
    (keys : PacketProtectionKeys crypto.maxKeyLen) (packet : Bytes)
    (destinationConnectionIdLen : Nat) (allowZeroFixedBit : Bool) : Except Error Bool :=
  peekKeyPhase (crypto.keyedHeaderProtectionMask keys) packet destinationConnectionIdLen
    allowZeroFixedBit

def peekShortPacketKeyPhaseWithFixedBitPolicy (hpKey : Vector UInt8 hpKeyLen) (packet : Bytes)
    (destinationConnectionIdLen : Nat) (allowZeroFixedBit : Bool) : Except Error Bool :=
  peekKeyPhase (crypto.aes128HeaderProtectionMask hpKey) packet destinationConnectionIdLen
    allowZeroFixedBit

def peekShortPacketKeyPhaseForPolicy (hpKey : Vector UInt8 hpKeyLen) (packet : Bytes)
    (destinationConnectionIdLen : Nat) (allowZeroFixedBit : Bool) : Except Error Bool :=
  crypto.peekShortPacketKeyPhaseWithFixedBitPolicy hpKey packet destinationConnectionIdLen
    allowZeroFixedBit

end TrafficCrypto

end Netz.Quic
