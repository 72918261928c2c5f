/-
Acknowledgements of packets with a lowered quality.

A peer answers the quality on the wire, and the session takes the answer to the quality that it
has chosen the phase of a message by.
-/
import Netz.Mqtt.SessionRoute
import Netz.Proofs.ControlPacket

namespace Netz.Mqtt

open Lib Packet.Publish

/-- What a peer sends for a packet: an acknowledgement of the quality on the wire. -/
def acksFor (transmission : Transmission) (maximumQos : QoS) : List PacketType :=
  match transmission with
  | .publish publish =>
    match publish.qos.min maximumQos with
    | .atMostOnce => []
    | .atLeastOnce => [.puback]
    | .exactlyOnce => [.pubrec, .pubcomp]
  | .pubrel _ => [.pubcomp]

/-- The acknowledgements of a packet one after the other, all accepted. -/
def Held.takeAcks (held : Held) (packetId reasonCode : Nat) : List PacketType → Option Held
  | [] => some held
  | packetType :: rest =>
    match held.handleAck packetType packetId reasonCode with
    | (.ok _, next) => next.takeAcks packetId reasonCode rest
    | (.error _, _) => none

/-- The packet that bytes are read as. -/
def ReadAs (protocol : ProtocolVersion) (maximumQos : QoS) (bytes : Bytes) : Transmission → Prop
  | .publish publish => parse protocol bytes =
      .ok ({ publish with qos := publish.qos.min maximumQos }.packet protocol)
  | .pubrel packetId => Packet.AckPacket.parse protocol bytes =
      .ok { packetType := .pubrel, packetId := UInt16.ofNat packetId }

/-- What is asked of a message in a slot: its packet is written if it can be at all and is read
back, and the answers to it complete the message. -/
structure CappedAcknowledged (held : Held) (index : Nat) (inflight : Inflight)
    (protocol : ProtocolVersion) (maximumQos : QoS) (nowNs : Int) : Prop where
  produced : ∀ bytes,
    encodeTransmission protocol (transmissionForInflight inflight nowNs) .exactlyOnce = .ok bytes →
      ∃ capped, encodeTransmission protocol (transmissionForInflight inflight nowNs) maximumQos =
        .ok capped
  wellFormed : ∀ bytes,
    encodeTransmission protocol (transmissionForInflight inflight nowNs) maximumQos = .ok bytes →
      ReadAs protocol maximumQos bytes (transmissionForInflight inflight nowNs)
  completed : ∀ reasonCode < 0x80, ∃ next, held.takeAcks inflight.packetId reasonCode
        (acksFor (transmissionForInflight inflight nowNs) maximumQos) = some next ∧
      next.session.inflight[index]? = some none

/-- The phase of the message is the one that the quality on the wire asks for. -/
def PhaseFits (inflight : Inflight) (maximumQos : QoS) : Prop :=
  inflight.state = .awaitPubcomp ∨
    Session.initialState (inflight.publish.qos.min maximumQos) = some inflight.state

section

variable {held : Held} {index : Nat} {inflight : Inflight}

lemma handleAck_completes {packetType : PacketType} {reasonCode : Nat}
    (hidx : held.session.packetIndex.get inflight.packetId = some index)
    (hslot : held.session.inflight[index]? = some (some inflight))
    (hphase : (packetType = .puback ∧ inflight.state = .awaitPuback) ∨
      (packetType = .pubcomp ∧ inflight.state = .awaitPubcomp)) :
    ∃ next, held.takeAcks inflight.packetId reasonCode [packetType] = some next ∧
      next.session.inflight[index]? = some none := by
  have hlt := lt_of_getElem? hslot
  unfold Held.takeAcks Held.handleAck
  rw [hidx]
  dsimp only
  rw [hslot]
  refine ⟨held.removeInflight index inflight .acknowledged, ?_, ?_⟩
  · unfold Held.acknowledge
    rcases hphase with ⟨rfl, hstate⟩ | ⟨rfl, hstate⟩ <;> simp [hstate, Held.takeAcks]
  · simp [Held.removeInflight, hlt]

/-- A PUBLISH with a packet identifier is written at QoS 1 if it is at QoS 2, and the other way
round. -/
theorem write_at_quality {protocol : ProtocolVersion} {publish : Packet.Publish} {packetId : UInt16}
    {bytes : Bytes} {qos : QoS} (hqos : qos ≠ .atMostOnce) (hid : publish.packetId = some packetId)
    (h : write protocol publish = .ok bytes) :
    ∃ capped, write protocol { publish with qos := qos } = .ok capped := by
  obtain ⟨contents, hcontents, h⟩ := bind_eq_ok h
  obtain ⟨u, htopicValid, hcontents⟩ := bind_eq_ok hcontents
  obtain ⟨u', hcontent, hcontents⟩ := bind_eq_ok hcontents
  obtain ⟨word, hword, hcontents⟩ := bind_eq_ok hcontents
  obtain ⟨topic, htopic, hcontents⟩ := bind_eq_ok hcontents
  obtain ⟨properties, hprops, hcontents⟩ := bind_eq_ok hcontents
  cases hcontents
  obtain ⟨header, hhdr, -⟩ := bind_eq_ok h
  obtain ⟨length, hlen, -⟩ := bind_eq_ok hhdr
  have hword' : writePacketId qos publish.packetId = .ok word := by
    rw [hid] at hword ⊢
    cases hquality : publish.qos with
    | atMostOnce =>
      rw [hquality] at hword
      cases hword
    | atLeastOnce =>
      rw [hquality] at hword
      cases qos <;> first | exact absurd rfl hqos | exact hword
    | exactlyOnce =>
      rw [hquality] at hword
      cases qos <;> first | exact absurd rfl hqos | exact hword
  have hcontent' : validateContent protocol { publish with qos := qos } = .ok u' := hcontent
  have hframed : ∀ flags, ∃ capped,
      framed .publish flags (topic ++ (word ++ (properties ++ publish.payload))) = .ok capped := by
    intro flags
    unfold framed FixedHeader.write
    rw [hlen]
    exact ⟨_, rfl⟩
  unfold write contents
  rw [htopicValid, hcontent', hword', htopic, hprops]
  exact hframed _

lemma readAs_of_written {protocol : ProtocolVersion} {transmission : Transmission}
    {maximumQos : QoS} {bytes : Bytes}
    (h : encodeTransmission protocol transmission maximumQos = .ok bytes) :
    ReadAs protocol maximumQos bytes transmission := by
  cases transmission with
  | publish publish => exact roundTrip h
  | pubrel packetId => exact Packet.AckPacket.roundTrip h

section

variable {protocol : ProtocolVersion} {maximumQos : QoS} {nowNs : Int}
  (hindex : held.session.packetIndex.get inflight.packetId = some index)
  (hslot : held.session.inflight[index]? = some (some inflight))

include hindex hslot

lemma handleAck_eq (packetType : PacketType) (reasonCode : Nat) :
    held.handleAck packetType inflight.packetId reasonCode =
      held.acknowledge packetType reasonCode index inflight := by
  unfold Held.handleAck
  rw [hindex]
  dsimp only
  rw [hslot]

lemma CappedAcknowledged.fits
    (h : CappedAcknowledged held index inflight protocol maximumQos nowNs) :
    PhaseFits inflight maximumQos := by
  have hphase := handleAck_eq hindex hslot
  obtain ⟨next, hnext, hgone⟩ := h.completed 0 (by decide)
  unfold PhaseFits
  have hsome : next.session.inflight[index]? ≠ some (some inflight) := by
    rw [hgone]
    nofun
  unfold transmissionForInflight at hnext
  cases hstate : inflight.state with
  | awaitPubcomp => exact .inl rfl
  | awaitPuback =>
    refine .inr ?_
    rw [hstate] at hnext
    cases hqos : inflight.publish.qos.min maximumQos with
    | atMostOnce =>
      simp only [acksFor, publishTransmission, hqos, Held.takeAcks, Option.some.injEq] at hnext
      exact absurd (hnext ▸ hslot) hsome
    | atLeastOnce => rfl
    | exactlyOnce =>
      simp [acksFor, publishTransmission, hqos, Held.takeAcks, hphase, Held.acknowledge,
        hstate] at hnext
  | awaitPubrec =>
    refine .inr ?_
    rw [hstate] at hnext
    cases hqos : inflight.publish.qos.min maximumQos with
    | atMostOnce =>
      simp only [acksFor, publishTransmission, hqos, Held.takeAcks, Option.some.injEq] at hnext
      exact absurd (hnext ▸ hslot) hsome
    | atLeastOnce =>
      simp [acksFor, publishTransmission, hqos, Held.takeAcks, hphase, Held.acknowledge,
        hstate] at hnext
    | exactlyOnce => rfl

lemma PhaseFits.acknowledged (hfits : PhaseFits inflight maximumQos) :
    CappedAcknowledged held index inflight protocol maximumQos nowNs := by
  rcases hfits with hreleased | hfits
  · have hpubrel : transmissionForInflight inflight nowNs = .pubrel inflight.packetId := by
      rw [transmissionForInflight, hreleased]
    refine ⟨?_, fun _ => readAs_of_written, ?_⟩
    · rw [hpubrel]
      exact fun bytes hbytes => ⟨bytes, hbytes⟩
    intro reasonCode _
    rw [hpubrel]
    exact handleAck_completes hindex hslot (.inr ⟨rfl, hreleased⟩)
  have hpublish : transmissionForInflight inflight nowNs =
      .publish (publishTransmission inflight nowNs) := by
    unfold transmissionForInflight
    cases hstate : inflight.state with
    | awaitPubcomp =>
      rw [hstate] at hfits
      cases hqos : inflight.publish.qos.min maximumQos <;> simp [hqos, Session.initialState] at hfits
    | awaitPuback | awaitPubrec => rfl
  refine ⟨?_, fun _ => readAs_of_written, ?_⟩
  · rw [hpublish]
    intro bytes hbytes
    refine write_at_quality ?_ rfl hbytes
    intro hzero
    have hnone : inflight.publish.qos.min maximumQos = .atMostOnce := hzero
    rw [hnone] at hfits
    cases hfits
  intro reasonCode hreason
  rw [hpublish]
  unfold acksFor
  dsimp only [publishTransmission]
  cases hqos : inflight.publish.qos.min maximumQos with
  | atMostOnce =>
    rw [hqos] at hfits
    cases hfits
  | atLeastOnce =>
    rw [hqos] at hfits
    exact handleAck_completes hindex hslot (.inl ⟨rfl, (Option.some.inj hfits).symm⟩)
  | exactlyOnce =>
    rw [hqos] at hfits
    have hstate : inflight.state = .awaitPubrec := (Option.some.inj hfits).symm
    unfold Held.takeAcks
    rw [handleAck_eq hindex hslot, Held.acknowledge, if_pos hstate, if_neg (not_le.mpr hreason)]
    have hlast : ∀ released : Inflight, released.state = .awaitPubcomp →
        released.packetId = inflight.packetId → ∃ next,
          (Held.mk (held.session.setInflight index released) held.totalBytes).takeAcks
            released.packetId reasonCode [.pubcomp] = some next ∧
          next.session.inflight[index]? = some none := by
      intro released hreleased hid
      refine handleAck_completes ?_ ?_ (.inr ⟨rfl, hreleased⟩)
      · rw [hid]
        exact hindex
      · simp [Session.setInflight, lt_of_getElem? hslot]
    exact hlast _ rfl rfl

end

/-- **The answers to a capped packet complete its message** exactly if the phase of the message
is that of the quality on the wire. -/
theorem capped_acknowledged_iff
    (hindex : held.session.packetIndex.get inflight.packetId = some index)
    (hslot : held.session.inflight[index]? = some (some inflight)) (protocol : ProtocolVersion)
    (maximumQos : QoS) (nowNs : Int) :
    CappedAcknowledged held index inflight protocol maximumQos nowNs ↔
      PhaseFits inflight maximumQos :=
  ⟨fun h => h.fits hindex hslot, fun h => h.acknowledged hindex hslot⟩

end

/-- A QoS 2 message that waits for its PUBREC. -/
def waitsForPubrec : Inflight where
  publish :=
    { serial := 0, topic := [0x74], payload := [], qos := .exactlyOnce, retain := false
      properties := [], storedAtNs := 0, expiryInterval := none, allocationBytes := 1 }
  packetId := 1
  state := .awaitPubrec
  needsSend := true
  retransmission := true

/-- A session of the one message, restored for a broker that has come to lower the quality. -/
def holdsOne : Held where
  session :=
    { generation := 1, routeId := 1, clientId := [0x61], connected := true, expiryInterval := 60
      expiresAtNs := none, inflight := [some waitsForPubrec], inflightCount := 1
      packetIndex := [(1, 0)], allocationBytes := 1 }
  totalBytes := 1

theorem capped_acknowledged_iff_whole :
    CappedAcknowledged holdsOne 0 waitsForPubrec .v5 .exactlyOnce 0 ↔
      PhaseFits waitsForPubrec .exactlyOnce :=
  @capped_acknowledged_iff holdsOne 0 waitsForPubrec (by decide) rfl .v5 .exactlyOnce 0

/-- The PUBACK for the QoS 1 packet is refused. -/
theorem not_capped_acknowledged :
    encodeTransmission .v5 (transmissionForInflight waitsForPubrec 0) .atLeastOnce =
        .ok [0x3a, 0x06, 0x00, 0x01, 0x74, 0x00, 0x01, 0x00] ∧
      ¬ CappedAcknowledged holdsOne 0 waitsForPubrec .v5 .atLeastOnce 0 := by
  refine ⟨by decide, ?_⟩
  intro h
  obtain ⟨next, hnext, -⟩ := h.completed 0 (by decide)
  exact absurd (hnext.symm.trans (by decide : _ = none)) nofun

end Netz.Mqtt
