/-
Control packets read back: acknowledgements, PUBLISH, DISCONNECT and AUTH.

Every writer checks what its parser checks, so a packet that is written is parsed, and to the
same fields: the bits of the flag bytes, the fields that are there or not, and the parts that a
writer leaves out because they say nothing.
-/
import Netz.Mqtt.SubscribePacket
import Netz.Proofs.MqttWire

namespace Netz.Mqtt.Packet

open Lib Lib.Reader Disconnect AckPacket ReadsAll List

/-! ### Pieces that packets share -/

variable {α : Type} {bytes content packet encoded : Bytes} {protocol : ProtocolVersion}
  {properties : List Property} {u : Unit} {packetType : PacketType} {publish : Publish}
  {ack : AckPacket} {disconnect : Disconnect} {a : α}

lemma parse_of_readsAll {r : Cursor α} (h : ReadsAll r bytes a) : r.parse bytes = .ok a := by
  unfold Cursor.parse
  rw [h]
  rfl

lemma readsAll_finish : ReadsAll finish [] () := rfl

lemma reads_section {context : PropertyContext}
    (h : writeSection protocol context properties = .ok bytes) :
    Reads (readSection protocol context) bytes properties := by
  cases protocol with
  | v5 =>
    obtain ⟨u, hvalid, h⟩ := bind_eq_ok h
    refine (reads_properties h).map ?_
    rw [check_ok hvalid]
    rfl
  | v311 =>
    obtain ⟨u, hnone, h⟩ := bind_eq_ok h
    cases h
    have hempty : properties = [] := by simpa using failIf_ok hnone
    rw [hempty]
    exact Reads.done []

lemma reads_packetId {packetId : UInt16} (h : validatePacketId packetId = .ok u) :
    Reads readPacketId (bigEndian 2 packetId.toNat) packetId := by
  refine (reads_int packetId.toNat_lt).map ?_
  rw [UInt16.ofNat_toNat, check_ok h]
  rfl

/-- **A framed packet is opened again.** -/
theorem parse_framed {flags : Nat} {check : FixedHeader → Except Error Unit}
    {read : FixedHeader → Except Error α} (hflags : flags < 16)
    (h : framed packetType flags content = .ok packet)
    (hcheck : ∀ fixed : FixedHeader, fixed.packetType = packetType → fixed.flags = flags →
      check fixed = .ok ())
    (hread : ∀ fixed : FixedHeader, fixed.packetType = packetType → fixed.flags = flags →
      fixed.remainingLen = content.length → body packet fixed = content → read fixed = .ok a) :
    (opened packet check >>= read) = .ok a := by
  obtain ⟨fixed, hfixed⟩ := framed_ok hflags h
  have hopened : opened packet check = .ok fixed := by
    unfold opened
    rw [hfixed.parsed]
    show (check fixed >>= fun _ => validatePacketBounds packet fixed >>= fun _ => pure fixed) = _
    rw [hcheck fixed hfixed.packetType hfixed.flags, show validatePacketBounds packet fixed = .ok ()
      from hfixed.bounds]
    rfl
  rw [hopened]
  exact hread fixed hfixed.packetType hfixed.flags hfixed.remaining hfixed.body

lemma isControl_ok {fixed : FixedHeader} (htype : fixed.packetType = packetType)
    (hflags : fixed.flags = packetType.defaultFlags) : isControl packetType fixed = .ok () := by
  unfold isControl validateControlFlags
  rw [htype, hflags, failIf_false (by simp), failIf_false (by simp)]
  rfl

/-- A packet whose content is read whole, behind the fixed header of its type. -/
theorem parse_control {r : Cursor α} (hflags : packetType.defaultFlags < 16)
    (h : framed packetType packetType.defaultFlags content = .ok packet)
    (hread : ReadsAll r content a) :
    (opened packet (isControl packetType) >>= fun fixed => r.parse (body packet fixed)) = .ok a :=
  parse_framed hflags h (fun _ htype hflags => isControl_ok htype hflags) fun _ _ _ _ hbody => by
    rw [hbody]
    exact parse_of_readsAll hread

lemma qosOrFail_level (qos : QoS) : qosOrFail qos.level = .ok qos := by
  cases qos <;> rfl

lemma reads_readOption {read : Cursor α} {write : α → Except Error Bytes} {option : Option α}
    (h : Connect.writeOption write option = .ok bytes)
    (hread : ∀ a word, option = some a → write a = .ok word → Reads read word a) :
    Reads (Connect.readOption option.isSome read) bytes option := by
  cases option with
  | none =>
    cases h
    exact Reads.done none
  | some a => exact (hread a bytes rfl h).map rfl

/-! ### CONNACK -/

lemma ConnAck.roundTrip {connAck : ConnAck} (h : ConnAck.write protocol connAck = .ok packet) :
    ConnAck.parse protocol packet = .ok connAck := by
  obtain ⟨contents, hcontents, h⟩ := bind_eq_ok h
  obtain ⟨u, hreason, hcontents⟩ := bind_eq_ok hcontents
  obtain ⟨u', hpresent, hcontents⟩ := bind_eq_ok hcontents
  obtain ⟨properties, hprops, hcontents⟩ := bind_eq_ok hcontents
  cases hcontents
  refine parse_control (by decide) h ?_
  have hbit : ∀ b : Bool, ((if b then 0x01 else 0x00 : UInt8)).toNat.testBit 0 = b := by decide
  have hhigh : ∀ b : Bool, ((if b then 0x01 else 0x00 : UInt8)).toNat / 2 = 0 := by decide
  refine (reads_byte _).andThen ?_
  rw [hhigh, hbit]
  refine check (check_ok (failIf_false (by decide))) ?_
  refine (reads_byte _).andThen ?_
  refine check (check_ok hreason) (check (check_ok hpresent) ?_)
  rw [← append_nil properties]
  refine (reads_section hprops).andThen ?_
  exact readsAll_finish.andThen (done _)

/-! ### PUBLISH -/

lemma Publish.flags_bits (publish : Publish) :
    publish.flags < 16 ∧ publish.flags.testBit 3 = publish.dup ∧
      publish.flags / 2 % 4 = publish.qos.level ∧ publish.flags.testBit 0 = publish.retain := by
  unfold Publish.flags
  cases publish.dup <;> cases publish.retain <;> cases publish.qos <;> decide

lemma Publish.reads_packetId {qos : QoS} {packetId : Option UInt16}
    (h : Publish.writePacketId qos packetId = .ok bytes) :
    Reads (Connect.readOption (qos != .atMostOnce) readPacketId) bytes packetId := by
  cases packetId with
  | none =>
    cases qos with
    | atMostOnce =>
      cases h
      exact Reads.done none
    | atLeastOnce | exactlyOnce => cases h
  | some value =>
    cases qos with
    | atMostOnce => cases h
    | atLeastOnce =>
      obtain ⟨u, hvalid, h⟩ := bind_eq_ok h
      cases h
      exact (Packet.reads_packetId hvalid).map rfl
    | exactlyOnce =>
      obtain ⟨u, hvalid, h⟩ := bind_eq_ok h
      cases h
      exact (Packet.reads_packetId hvalid).map rfl

lemma Publish.validatePayloadFormat_ok (h : Publish.validateContent protocol publish = .ok u) :
    validatePayloadFormat publish.properties publish.payload = .ok () := by
  cases protocol with
  | v5 => exact h
  | v311 =>
    have hempty : publish.properties = [] := by simpa using failIf_ok h
    rw [hempty]
    rfl

lemma Publish.roundTrip (h : Publish.write protocol publish = .ok packet) :
    Publish.parse protocol packet = .ok publish := by
  obtain ⟨contents, hcontents, h⟩ := bind_eq_ok h
  obtain ⟨u, htopicValid, hcontents⟩ := bind_eq_ok hcontents
  obtain ⟨u', hcontent, hcontents⟩ := bind_eq_ok hcontents
  obtain ⟨packetId, hpacketId, hcontents⟩ := bind_eq_ok hcontents
  obtain ⟨topic, htopic, hcontents⟩ := bind_eq_ok hcontents
  obtain ⟨properties, hprops, hcontents⟩ := bind_eq_ok hcontents
  cases hcontents
  obtain ⟨hflags, hdup, hqos, hretain⟩ := publish.flags_bits
  refine parse_framed hflags h (fun fixed htype _ => ?_) (fun fixed _ hfixed _ hbody => ?_)
  · rw [htype, failIf_false (by decide)]
  rw [hbody, hfixed]
  apply parse_of_readsAll
  refine (reads_utf8 htopic).andThen ?_
  rw [hqos]
  refine check (check_ok (qosOrFail_level publish.qos)) ?_
  refine (Publish.reads_packetId hpacketId).andThen ?_
  refine (reads_section hprops).andThen ?_
  refine check (check_ok htopicValid) ?_
  refine (readsAll_takeRest publish.payload).andThen ?_
  refine check (check_ok (Publish.validatePayloadFormat_ok hcontent)) ?_
  rw [hdup, hretain]
  exact done publish

/-! ### PUBACK, PUBREC, PUBREL and PUBCOMP -/

lemma reads_properties_ne_nil (h : writeProperties properties = .ok bytes) : bytes ≠ [] := by
  obtain ⟨encoded, -, h⟩ := bind_eq_ok h
  obtain ⟨length, hlen, h⟩ := bind_eq_ok h
  cases h
  intro hnil
  exact (decodeRemainingLength_encode hlen []).1 (append_eq_nil_iff.mp hnil).1

lemma readsAll_readRest (h : writeProperties properties = .ok bytes) :
    ReadsAll readRest bytes properties := by
  unfold readRest
  have hne := reads_properties_ne_nil h
  have heof : ReadsAll (Cursor.eof >>= fun atEnd =>
      if atEnd then (pure [] : Cursor (List Property)) else parseProperties) bytes properties := by
    refine bind_ok_iff.mpr ⟨false, bytes, ?_, (reads_properties h).all⟩
    cases bytes with
    | nil => exact absurd rfl hne
    | cons b rest => rfl
  exact heof

lemma readsAll_reason {reasonCode : UInt8} {f : UInt8 → List Property → Cursor α}
    {checked : UInt8 → Cursor Unit} (hchecked : checked reasonCode = pure ())
    (h : writeReason reasonCode properties = .ok bytes)
    (hf : ReadsAll (f reasonCode properties) [] a) :
    ReadsAll (do
      let code ← readReason
      checked code
      let found ← readRest
      f code found) bytes a := by
  unfold AckPacket.writeReason at h
  by_cases hsome : properties ≠ []
  · rw [if_pos hsome] at h
    obtain ⟨encoded, henc, h⟩ := bind_eq_ok h
    cases h
    refine bind_ok_iff.mpr ⟨reasonCode, encoded, rfl, ?_⟩
    exact check hchecked ((readsAll_readRest henc).andThen hf)
  have hempty : properties = [] := not_not.mp hsome
  subst hempty
  by_cases hcode : reasonCode ≠ 0
  · rw [if_pos hcode] at h
    cases h
    refine bind_ok_iff.mpr ⟨reasonCode, [], rfl, ?_⟩
    exact check hchecked (bind_ok_iff.mpr ⟨[], [], rfl, hf⟩)
  have hzero : reasonCode = 0 := not_not.mp hcode
  subst hzero
  cases h
  refine bind_ok_iff.mpr ⟨0, [], rfl, ?_⟩
  exact check hchecked (bind_ok_iff.mpr ⟨[], [], rfl, hf⟩)

lemma AckPacket.readsAll_read {reason : Bytes} (hpacketId : validatePacketId ack.packetId = .ok u)
    (h : AckPacket.content protocol ack = .ok reason) :
    ReadsAll (AckPacket.read protocol ack.packetType)
      (bigEndian 2 ack.packetId.toNat ++ reason) ack := by
  refine (reads_packetId hpacketId).andThen ?_
  cases protocol with
  | v311 =>
    obtain ⟨v, hcode, h⟩ := bind_eq_ok h
    obtain ⟨v', hnone, h⟩ := bind_eq_ok h
    cases h
    have hzero : ack.reasonCode = 0 := by simpa using failIf_ok hcode
    have hempty : ack.properties = [] := by simpa using failIf_ok hnone
    obtain ⟨packetType, packetId, reasonCode, properties⟩ := ack
    subst hzero hempty
    exact readsAll_finish.andThen (ReadsAll.done _)
  | v5 =>
    obtain ⟨v, hcode, h⟩ := bind_eq_ok h
    obtain ⟨v', hvalid, hreason⟩ := bind_eq_ok h
    refine readsAll_reason (check_ok hcode) hreason ?_
    exact ReadsAll.check (check_ok hvalid) (readsAll_finish.andThen (ReadsAll.done ack))

lemma AckPacket.roundTrip (h : write protocol ack = .ok packet) :
    parse protocol packet = .ok ack := by
  obtain ⟨contents, hcontents, h⟩ := bind_eq_ok h
  obtain ⟨u, hpacketId, hcontents⟩ := bind_eq_ok hcontents
  obtain ⟨u', hack, hcontents⟩ := bind_eq_ok hcontents
  obtain ⟨reason, hreason, hcontents⟩ := bind_eq_ok hcontents
  cases hcontents
  have hack : isAck ack.packetType = true := by simpa using failIf_ok hack
  have hflags : ack.packetType.defaultFlags < 16 := by cases ack.packetType <;> decide
  refine parse_framed hflags h (fun fixed htype hfixed => ?_) (fun fixed htype _ _ hbody => ?_)
  · show (failIf (!isAck fixed.packetType) _ >>= fun _ => validateControlFlags fixed) = _
    unfold validateControlFlags
    rw [htype, hfixed, hack, failIf_false (by simp), failIf_false (by simp)]
    rfl
  · rw [hbody, htype]
    exact parse_of_readsAll (AckPacket.readsAll_read hpacketId hreason)

/-! ### DISCONNECT and AUTH -/

lemma Disconnect.writeReason_ok (h : writeReason disconnect = .ok content) :
    validatePropertiesFor .disconnect disconnect.properties = .ok () ∧
      AckPacket.writeReason disconnect.reasonCode disconnect.properties = .ok content := by
  unfold writeReason at h
  unfold AckPacket.writeReason
  by_cases hempty : disconnect.properties = []
  · rw [hempty] at h ⊢
    refine ⟨rfl, ?_⟩
    by_cases hcode : disconnect.reasonCode ≠ 0
    · rw [if_pos ⟨hcode, rfl⟩] at h
      simp [hcode, h]
    · rw [if_neg (fun hboth => hcode hboth.1), if_neg (by simpa using hcode)] at h
      simp [hcode, h]
  rw [if_neg (fun hboth => hempty hboth.2), if_pos (.inr hempty)] at h
  obtain ⟨u, hvalid, h⟩ := bind_eq_ok h
  rw [if_pos hempty]
  exact ⟨hvalid, h⟩

lemma Disconnect.readsAll_read (h : Disconnect.content protocol disconnect = .ok encoded) :
    ReadsAll (Disconnect.read protocol) encoded disconnect := by
  cases protocol with
  | v311 =>
    obtain ⟨u, hcode, h⟩ := bind_eq_ok h
    obtain ⟨u', hnone, h⟩ := bind_eq_ok h
    cases h
    have hzero : disconnect.reasonCode = 0 := by simpa using failIf_ok hcode
    have hempty : disconnect.properties = [] := by simpa using failIf_ok hnone
    obtain ⟨reasonCode, properties⟩ := disconnect
    subst hzero hempty
    rfl
  | v5 =>
    obtain ⟨u, hcode, h⟩ := bind_eq_ok h
    obtain ⟨hvalid, hreason⟩ := Disconnect.writeReason_ok h
    refine readsAll_reason (check_ok hcode) hreason ?_
    exact ReadsAll.check (check_ok hvalid) (readsAll_finish.andThen (ReadsAll.done disconnect))

lemma Disconnect.content_v311 (h : Disconnect.content .v311 disconnect = .ok encoded) :
    encoded = [] := by
  obtain ⟨u, -, h⟩ := bind_eq_ok h
  obtain ⟨u', -, h⟩ := bind_eq_ok h
  cases h
  rfl

lemma Disconnect.roundTrip (h : write protocol disconnect = .ok packet) :
    parse protocol packet = .ok disconnect := by
  obtain ⟨encoded, hcontent, h⟩ := bind_eq_ok h
  refine parse_framed (by decide) h (fun fixed htype hflags => isControl_ok htype hflags)
    (fun fixed _ _ hrem hbody => ?_)
  have hlen : (protocol == .v311 && fixed.remainingLen != 0) = false := by
    cases protocol with
    | v5 => rfl
    | v311 =>
      rw [hrem, Disconnect.content_v311 hcontent]
      rfl
  rw [hlen, hbody]
  exact parse_of_readsAll (Disconnect.readsAll_read hcontent)

lemma Auth.roundTrip {auth : Auth} (h : Auth.write protocol auth = .ok packet) :
    Auth.parse protocol packet = .ok auth := by
  obtain ⟨encoded, hcontent, h⟩ := bind_eq_ok h
  obtain ⟨u, hprotocol, hcontent⟩ := bind_eq_ok hcontent
  obtain ⟨u', hcode, hcontent⟩ := bind_eq_ok hcontent
  obtain ⟨u'', hvalid, hcontent⟩ := bind_eq_ok hcontent
  refine parse_framed (by decide) h (fun fixed htype hflags => ?_)
    (fun fixed _ _ hrem hbody => ?_)
  · rw [isControl_ok htype hflags, failIf_ok hprotocol]
    rfl
  unfold Auth.content at hcontent
  by_cases hsome : auth.reasonCode ≠ 0 ∨ auth.properties ≠ []
  · rw [if_pos hsome] at hcontent
    obtain ⟨rest, hrest, hcontent⟩ := bind_eq_ok hcontent
    cases hcontent
    rw [if_neg (by rw [hrem]; exact Nat.succ_ne_zero _), hbody]
    apply parse_of_readsAll
    refine bind_ok_iff.mpr ⟨auth.reasonCode, rest, rfl, ?_⟩
    refine check (check_ok hcode) ((reads_properties hrest).all.andThen ?_)
    exact check (check_ok hvalid) (readsAll_finish.andThen (done auth))
  rw [if_neg hsome] at hcontent
  cases hcontent
  obtain ⟨hzero, hempty⟩ := not_or.mp hsome
  obtain ⟨reasonCode, properties⟩ := auth
  rw [not_not] at hzero hempty
  subst hzero hempty
  rw [length_nil] at hrem
  rw [if_pos hrem]
  rfl

end Netz.Mqtt.Packet
