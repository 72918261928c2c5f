/-
Packet writers and the list they append to.

A writer encodes all that is behind the fixed header into a list of its own, where an error
costs nothing.  The fixed header then goes to the caller's list in two steps, and only the second
one finds out that the packet is too long.
-/
import Netz.Mqtt.SubscribePacket

namespace Netz.Mqtt.Packet

open Lib List

namespace ControlPacket

/-- What is behind the fixed header: `variable` of the writers. -/
def contents (protocol : ProtocolVersion) : ControlPacket → Except Error Bytes
  | .connect fields => Connect.contents { fields with protocol := protocol }
  | .connAck fields => fields.contents protocol
  | .publish fields => fields.contents protocol
  | .ack fields => fields.contents protocol
  | .subscribe fields => fields.contents protocol
  | .subAck fields => fields.contents protocol
  | .unsubscribe fields => fields.contents protocol
  | .unsubAck fields => fields.contents protocol
  | .disconnect fields => fields.content protocol
  | .auth fields => fields.contents protocol

def typeAndFlags : ControlPacket → PacketType × Nat
  | .connect _ => (.connect, 0)
  | .connAck _ => (.connack, 0)
  | .publish fields => (.publish, fields.flags)
  | .ack fields => (fields.packetType, fields.packetType.defaultFlags)
  | .subscribe _ => (.subscribe, PacketType.subscribe.defaultFlags)
  | .subAck _ => (.suback, 0)
  | .unsubscribe _ => (.unsubscribe, PacketType.unsubscribe.defaultFlags)
  | .unsubAck _ => (.unsuback, 0)
  | .disconnect _ => (.disconnect, 0)
  | .auth _ => (.auth, 0)

/-! ### Appending -/

/-- `FixedHeader.write`, with the list it appends to: the length is checked behind the first
byte. -/
def appendHeader (header : FixedHeader) (list : Bytes) : Except Error Unit × Bytes :=
  let started := list ++ [UInt8.ofNat (header.packetType.toInt * 16 + header.flags)]
  match encodeRemainingLength header.remainingLen with
  | .error e => (.error e, started)
  | .ok length => (.ok (), started ++ length)

/-- A writer, with the list it appends to. -/
def writeTo (protocol : ProtocolVersion) (packet : ControlPacket) (list : Bytes) :
    Except Error Unit × Bytes :=
  match packet.contents protocol with
  | .error e => (.error e, list)
  | .ok contents =>
    let header : FixedHeader :=
      { packetType := packet.typeAndFlags.1, flags := packet.typeAndFlags.2
        remainingLen := contents.length }
    match appendHeader header list with
    | (.error e, started) => (.error e, started)
    | (.ok _, started) => (.ok (), started ++ contents)

lemma write_eq (protocol : ProtocolVersion) (packet : ControlPacket) :
    packet.write protocol = (packet.contents protocol >>=
      framed packet.typeAndFlags.1 packet.typeAndFlags.2) := by
  cases packet <;> rfl

/-- What is asked of a writer: it appends a packet, or it fails and appends nothing. -/
structure AllOrNothing (protocol : ProtocolVersion) (packet : ControlPacket) (list : Bytes) :
    Prop where
  all : (packet.writeTo protocol list).1 = .ok () →
    ∃ bytes, packet.write protocol = .ok bytes ∧ (packet.writeTo protocol list).2 = list ++ bytes
  nothing : ∀ e, (packet.writeTo protocol list).1 = .error e →
    (packet.writeTo protocol list).2 = list

lemma writeTo_long {protocol : ProtocolVersion} {packet : ControlPacket} {contents : Bytes}
    (hcontents : packet.contents protocol = .ok contents)
    (hlong : maxRemainingLength < contents.length) (list : Bytes) :
    packet.writeTo protocol list = (.error .remainingLengthTooLarge,
      list ++ [UInt8.ofNat (packet.typeAndFlags.1.toInt * 16 + packet.typeAndFlags.2)]) := by
  unfold writeTo appendHeader encodeRemainingLength
  rw [hcontents]
  dsimp only
  rw [if_pos hlong]

/-- **A writer appends all or nothing** exactly if its contents are not too long. -/
theorem allOrNothing_iff (protocol : ProtocolVersion) (packet : ControlPacket) (list : Bytes) :
    AllOrNothing protocol packet list ↔ ∀ contents, packet.contents protocol = .ok contents →
        contents.length ≤ maxRemainingLength := by
  constructor
  · intro h contents hcontents
    by_contra hlong
    have hto := writeTo_long hcontents (not_le.mp hlong) list
    have hnothing := h.nothing .remainingLengthTooLarge (by rw [hto])
    simp [hto] at hnothing
  intro h
  have hwrite := write_eq protocol packet
  cases hcontents : packet.contents protocol with
  | error e =>
    have hto : packet.writeTo protocol list = (.error e, list) := by
      unfold writeTo
      rw [hcontents]
    exact ⟨by simp [hto], by simp [hto]⟩
  | ok contents =>
    have hlength : encodeRemainingLength contents.length =
        .ok (encodeRemainingLoop 4 contents.length) := by
      unfold encodeRemainingLength
      rw [if_neg (not_lt.mpr (h contents hcontents))]
    have hframed : framed packet.typeAndFlags.1 packet.typeAndFlags.2 contents =
        .ok (UInt8.ofNat (packet.typeAndFlags.1.toInt * 16 + packet.typeAndFlags.2) ::
          encodeRemainingLoop 4 contents.length ++ contents) := by
      unfold framed FixedHeader.write
      rw [hlength]
      rfl
    have hto : packet.writeTo protocol list = (.ok (), list ++
        [UInt8.ofNat (packet.typeAndFlags.1.toInt * 16 + packet.typeAndFlags.2)] ++
          encodeRemainingLoop 4 contents.length ++ contents) := by
      unfold writeTo appendHeader
      rw [hcontents]
      dsimp only
      rw [hlength]
    rw [hcontents] at hwrite
    refine ⟨fun _ => ⟨_, hwrite.trans hframed, by simp [hto]⟩, ?_⟩
    rw [hto]
    nofun

/-- A PUBLISH whose payload is as long as a packet may be behind its header. -/
def longPublish : ControlPacket :=
  .publish { dup := false, qos := .atMostOnce, retain := false, topic := [0x74], packetId := none
             payload := replicate maxRemainingLength 0 }

/-- The first byte of its header is left in the list. -/
theorem longPublish_not_allOrNothing : ¬ AllOrNothing .v311 longPublish [] := by
  have hcontents : ∀ payload, Publish.contents .v311
      { dup := false, qos := .atMostOnce, retain := false, topic := [0x74], packetId := none
        payload := payload } = .ok ([0x00, 0x01, 0x74] ++ payload) := by
    intro payload
    have hutf8 : writeUtf8 [0x74] = .ok [0x00, 0x01, 0x74] := by decide
    unfold Publish.contents
    rw [hutf8]
    rfl
  have hlong : maxRemainingLength <
      (([0x00, 0x01, 0x74] : Bytes) ++ replicate maxRemainingLength 0).length := by
    rw [length_append, length_replicate]
    exact Nat.lt_add_of_pos_left (by decide)
  have hto := @writeTo_long _ longPublish _ (hcontents _) hlong []
  intro h
  have hnothing := h.nothing .remainingLengthTooLarge (by rw [hto])
  simp [hto] at hnothing

end ControlPacket

end Netz.Mqtt.Packet
