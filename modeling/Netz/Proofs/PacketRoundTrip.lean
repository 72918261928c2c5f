/-
Control packets read back: CONNECT, SUBSCRIBE, UNSUBSCRIBE, and all packets together.

A list of items is written one after the other and read until nothing is left; no item is
empty, so the reader stops where the writer did.
-/
import Netz.Proofs.ControlPacket

namespace Netz.Mqtt.Packet

open Lib Lib.Reader ReadsAll Connect List

/-! ### CONNECT -/

lemma Connect.flags_bits (connect : Connect) :
    connect.flags < 256 ∧ connect.flags.testBit 1 = connect.cleanStart ∧
      connect.flags.testBit 2 = connect.will.isSome ∧
      connect.flags.testBit 6 = connect.password.isSome ∧
      connect.flags.testBit 7 = connect.username.isSome := by
  unfold flags
  cases connect.will with
  | none =>
    cases connect.cleanStart <;> cases connect.password.isSome <;>
      cases connect.username.isSome <;> decide
  | some will =>
    rw [Option.isSome_some]
    dsimp only
    cases connect.cleanStart <;> cases connect.password.isSome <;>
      cases connect.username.isSome <;> cases will.retain <;> cases will.qos <;> decide

variable {connect : Connect} {will : LastWill} {protocol : ProtocolVersion} {bytes packet : Bytes}
  {α : Type} {subscription : Subscription} {unsubAck : UnsubAck} {item : Cursor α}
  {write : α → Except Error Bytes}

lemma Connect.flags_will (h : connect.will = some will) :
    connect.flags / 8 % 4 = will.qos.level ∧ connect.flags.testBit 5 = will.retain := by
  unfold flags
  rw [h]
  dsimp only
  cases connect.cleanStart <;> cases connect.password.isSome <;>
    cases connect.username.isSome <;> cases will.retain <;> cases will.qos <;> decide

lemma Connect.levelOrFail_toByte (protocol : ProtocolVersion) :
    levelOrFail (ProtocolVersion.toByte protocol) = .ok protocol := by
  cases protocol <;> rfl

lemma Connect.writeWillProperties_ok (h : writeWillProperties protocol will = .ok bytes) :
    writeSection protocol .will will.properties = .ok bytes ∧
      validatePayloadFormat will.properties will.payload = .ok () := by
  cases protocol with
  | v5 =>
    obtain ⟨u, hvalid, h⟩ := bind_eq_ok h
    obtain ⟨u', hformat, h⟩ := bind_eq_ok h
    refine ⟨?_, hformat⟩
    unfold writeSection
    rw [hvalid]
    exact h
  | v311 =>
    refine ⟨h, ?_⟩
    obtain ⟨u, hnone, h⟩ := bind_eq_ok h
    have hempty : will.properties = [] := by simpa using failIf_ok hnone
    rw [hempty]
    rfl

lemma Connect.reads_will {flags : Nat} (hqos : flags / 8 % 4 = will.qos.level)
    (hretain : flags.testBit 5 = will.retain) (h : writeWill protocol will = .ok bytes) :
    Reads (readWill protocol flags) bytes will := by
  obtain ⟨u, htopicValid, h⟩ := bind_eq_ok h
  obtain ⟨properties, hprops, h⟩ := bind_eq_ok h
  obtain ⟨topic, htopic, h⟩ := bind_eq_ok h
  obtain ⟨payload, hpay, h⟩ := bind_eq_ok h
  cases h
  obtain ⟨hsection, hformat⟩ := writeWillProperties_ok hprops
  refine (reads_section hsection).bind ?_
  refine (reads_utf8 htopic).bind ?_
  refine Reads.check (check_ok htopicValid) ?_
  refine (reads_binary hpay).map ?_
  rw [check_ok hformat, hqos, check_ok (qosOrFail_level will.qos), hretain]
  rfl

lemma Connect.roundTrip (h : Connect.write connect = .ok packet) :
    parse packet = .ok connect := by
  obtain ⟨contents, hcontents, h⟩ := bind_eq_ok h
  obtain ⟨u, hclientValid, hcontents⟩ := bind_eq_ok hcontents
  obtain ⟨u', hflagsValid, hcontents⟩ := bind_eq_ok hcontents
  obtain ⟨name, hname, hcontents⟩ := bind_eq_ok hcontents
  obtain ⟨properties, hprops, hcontents⟩ := bind_eq_ok hcontents
  obtain ⟨clientId, hclientId, hcontents⟩ := bind_eq_ok hcontents
  obtain ⟨will, hwill, hcontents⟩ := bind_eq_ok hcontents
  obtain ⟨username, husername, hcontents⟩ := bind_eq_ok hcontents
  obtain ⟨password, hpassword, hcontents⟩ := bind_eq_ok hcontents
  cases hcontents
  obtain ⟨hlt, hclean, hwillBit, hpasswordBit, husernameBit⟩ := connect.flags_bits
  have hbyte : (UInt8.ofNat connect.flags).toNat = connect.flags := by
    exact Nat.mod_eq_of_lt hlt
  refine parse_framed (by decide) h (fun fixed htype hflags => ?_) (fun fixed _ _ _ hbody => ?_)
  · rw [htype, hflags]
    exact failIf_false (by decide)
  rw [hbody]
  apply parse_of_readsAll
  refine (reads_utf8 hname).andThen ?_
  refine check (check_ok (failIf_false (by decide))) ?_
  refine (reads_byte _).andThen ?_
  refine check (check_ok (levelOrFail_toByte connect.protocol)) ?_
  refine (reads_byte _).andThen ?_
  rw [hbyte]
  refine check (check_ok hflagsValid) ?_
  refine (reads_int connect.keepAliveSeconds.toNat_lt).andThen ?_
  refine (reads_section hprops).andThen ?_
  refine (reads_utf8 hclientId).andThen ?_
  rw [hwillBit, husernameBit, hpasswordBit, hclean]
  refine (reads_readOption hwill fun a word hsome hword => ?_).andThen ?_
  · obtain ⟨hqos, hretain⟩ := flags_will hsome
    exact reads_will hqos hretain hword
  refine (reads_readOption husername fun a word _ hword => reads_utf8 hword).andThen ?_
  refine (reads_readOption hpassword fun a word _ hword => reads_binary hword).all.andThen ?_
  refine readsAll_finish.andThen (check (check_ok hclientValid) ?_)
  rw [UInt16.ofNat_toNat]
  exact done connect

/-! ### Items until the end -/

/-- **A loop reads back the items that were written one after the other.** -/
theorem readsAll_untilEof (hitem : ∀ a word, write a = .ok word → word ≠ [] ∧ Reads item word a) :
    ∀ (items : List α) (bytes : Bytes) (turns : Nat), writeAll write items = .ok bytes →
      bytes.length ≤ turns → ReadsAll (untilEof item turns) bytes items := by
  intro items
  induction items with
  | nil =>
    intro bytes turns h hturns
    cases h
    cases turns with
    | zero | succ => rfl
  | cons a rest ih =>
    intro bytes turns h hturns
    obtain ⟨first, hfirst, h⟩ := bind_eq_ok h
    obtain ⟨later, hlater, h⟩ := bind_eq_ok h
    cases h
    obtain ⟨hne, hreads⟩ := hitem a first hfirst
    have hpos := length_pos_iff.mpr hne
    rw [length_append] at hturns
    cases turns with
    | zero => omega
    | succ turns =>
      have heof : Cursor.eof (first ++ later) = .ok (false, first ++ later) := by
        cases first with
        | nil => exact absurd rfl hne
        | cons b tail => rfl
      refine bind_ok_iff.mpr ⟨false, first ++ later, heof, ?_⟩
      refine hreads.andThen ?_
      exact (ih later turns hlater (by omega)).andThen (done (a :: rest))

lemma readsAll_readAll (hitem : ∀ a word, write a = .ok word → word ≠ [] ∧ Reads item word a)
    {items : List α} (h : writeAll write items = .ok bytes) : ReadsAll (readAll item) bytes items :=
  bind_ok_iff.mpr ⟨bytes.length, bytes, rfl,
    readsAll_untilEof hitem items bytes bytes.length h le_rfl⟩

lemma writeUtf8_ne_nil {value : Bytes} (h : writeUtf8 value = .ok bytes) : bytes ≠ [] := by
  obtain ⟨u, -, h⟩ := bind_eq_ok h
  obtain ⟨u', -, h⟩ := bind_eq_ok h
  cases h
  intro hnil
  have hlen := congrArg length hnil
  rw [length_append, length_bigEndian, length_nil] at hlen
  omega

/-! ### SUBSCRIBE and SUBACK -/

lemma subscriptionOptions_bits (h : subscriptionOptions subscription / 64 = 0) :
    subscriptionOptions subscription < 256 ∧
      subscriptionOptions subscription % 4 = subscription.qos.level ∧
      (subscriptionOptions subscription).testBit 2 = subscription.noLocal ∧
      (subscriptionOptions subscription).testBit 3 = subscription.retainAsPublished ∧
      subscriptionOptions subscription / 16 % 4 = subscription.retainHandling := by
  obtain ⟨topicFilter, qos, noLocal, retainAsPublished, retainHandling⟩ := subscription
  unfold subscriptionOptions at h ⊢
  dsimp only at h ⊢
  obtain rfl | rfl | rfl | rfl : retainHandling = 0 ∨ retainHandling = 1 ∨ retainHandling = 2 ∨
      retainHandling = 3 := by omega
  all_goals cases qos <;> cases noLocal <;> cases retainAsPublished <;> decide

lemma Subscribe.reads_subscription
    (h : Subscribe.writeSubscription protocol subscription = .ok bytes) :
    bytes ≠ [] ∧ Reads (Subscribe.readSubscription protocol) bytes subscription := by
  obtain ⟨u, hfilterValid, h⟩ := bind_eq_ok h
  obtain ⟨topicFilter, hfilter, h⟩ := bind_eq_ok h
  obtain ⟨u', hopts, h⟩ := bind_eq_ok h
  obtain ⟨u'', hshared, h⟩ := bind_eq_ok h
  cases h
  refine ⟨append_ne_nil_of_left_ne_nil (writeUtf8_ne_nil hfilter) _, ?_⟩
  have hreserved : subscriptionOptions subscription / 64 = 0 := by
    obtain ⟨v, hreserved, -⟩ := bind_eq_ok hopts
    simpa using failIf_ok hreserved
  obtain ⟨hlt, hqos, hnoLocal, hretain, hhandling⟩ := subscriptionOptions_bits hreserved
  have hbyte : (UInt8.ofNat (subscriptionOptions subscription)).toNat =
      subscriptionOptions subscription := by
    exact Nat.mod_eq_of_lt hlt
  refine (reads_utf8 hfilter).bind ?_
  refine Reads.check (check_ok hfilterValid) ?_
  refine (reads_byte _).map ?_
  dsimp only
  rw [hbyte, check_ok hopts, check_ok hshared, hqos, check_ok (qosOrFail_level _), hnoLocal,
    hretain, hhandling]
  rfl

lemma Subscribe.roundTrip {subscribe : Subscribe}
    (h : Subscribe.write protocol subscribe = .ok packet) :
    Subscribe.parse protocol packet = .ok subscribe := by
  obtain ⟨contents, hcontents, h⟩ := bind_eq_ok h
  obtain ⟨u, hpacketId, hcontents⟩ := bind_eq_ok hcontents
  obtain ⟨u', hsome, hcontents⟩ := bind_eq_ok hcontents
  obtain ⟨properties, hprops, hcontents⟩ := bind_eq_ok hcontents
  obtain ⟨subscriptions, hsubscriptions, hcontents⟩ := bind_eq_ok hcontents
  cases hcontents
  refine parse_control (by decide) h ?_
  refine (reads_packetId hpacketId).andThen ?_
  refine (reads_section hprops).andThen ?_
  refine (readsAll_readAll (fun a word => Subscribe.reads_subscription) hsubscriptions).andThen ?_
  exact check (check_ok hsome) (done subscribe)

lemma SubAck.roundTrip {subAck : SubAck} (h : SubAck.write protocol subAck = .ok packet) :
    SubAck.parse protocol packet = .ok subAck := by
  obtain ⟨contents, hcontents, h⟩ := bind_eq_ok h
  obtain ⟨u, hpacketId, hcontents⟩ := bind_eq_ok hcontents
  obtain ⟨u', hsome, hcontents⟩ := bind_eq_ok hcontents
  obtain ⟨properties, hprops, hcontents⟩ := bind_eq_ok hcontents
  obtain ⟨u'', hreasons, hcontents⟩ := bind_eq_ok hcontents
  cases hcontents
  refine parse_control (by decide) h ?_
  refine (reads_packetId hpacketId).andThen ?_
  refine (reads_section hprops).andThen ?_
  refine (readsAll_takeRest subAck.reasonCodes).andThen ?_
  exact check (check_ok hreasons) (check (check_ok hsome) (done subAck))

/-! ### UNSUBSCRIBE and UNSUBACK -/

lemma Unsubscribe.reads_filter {filter : Bytes} (h : Unsubscribe.writeFilter filter = .ok bytes) :
    bytes ≠ [] ∧ Reads Unsubscribe.readFilter bytes filter := by
  obtain ⟨u, hvalid, h⟩ := bind_eq_ok h
  refine ⟨writeUtf8_ne_nil h, (reads_utf8 h).map ?_⟩
  rw [check_ok hvalid]
  rfl

lemma Unsubscribe.roundTrip {unsubscribe : Unsubscribe}
    (h : Unsubscribe.write protocol unsubscribe = .ok packet) :
    Unsubscribe.parse protocol packet = .ok unsubscribe := by
  obtain ⟨contents, hcontents, h⟩ := bind_eq_ok h
  obtain ⟨u, hpacketId, hcontents⟩ := bind_eq_ok hcontents
  obtain ⟨u', hsome, hcontents⟩ := bind_eq_ok hcontents
  obtain ⟨properties, hprops, hcontents⟩ := bind_eq_ok hcontents
  obtain ⟨filters, hfilters, hcontents⟩ := bind_eq_ok hcontents
  cases hcontents
  refine parse_control (by decide) h ?_
  refine (reads_packetId hpacketId).andThen ?_
  refine (reads_section hprops).andThen ?_
  refine (readsAll_readAll (fun a word => Unsubscribe.reads_filter) hfilters).andThen ?_
  exact check (check_ok hsome) (done unsubscribe)

/-- What a parser finds of an UNSUBACK: MQTT 3.1.1 has no reason codes on the wire. -/
def UnsubAck.readBack (protocol : ProtocolVersion) (unsubAck : UnsubAck) : UnsubAck :=
  match protocol with
  | .v311 => { unsubAck with reasonCodes := [0x00] }
  | .v5 => unsubAck

lemma UnsubAck.readsAll_read {encoded : Bytes} {u : Unit}
    (hpacketId : validatePacketId unsubAck.packetId = .ok u)
    (h : UnsubAck.content protocol unsubAck = .ok encoded) :
    ReadsAll (UnsubAck.read protocol) (bigEndian 2 unsubAck.packetId.toNat ++ encoded)
      (unsubAck.readBack protocol) := by
  refine (reads_packetId hpacketId).andThen ?_
  cases protocol with
  | v311 =>
    obtain ⟨v, hnone, h⟩ := bind_eq_ok h
    obtain ⟨v', -, h⟩ := bind_eq_ok h
    obtain ⟨v'', -, h⟩ := bind_eq_ok h
    cases h
    have hempty : unsubAck.properties = [] := by simpa using failIf_ok hnone
    unfold UnsubAck.readBack
    rw [hempty]
    exact readsAll_finish.andThen (done _)
  | v5 =>
    obtain ⟨v, hsome, h⟩ := bind_eq_ok h
    obtain ⟨properties, hprops, h⟩ := bind_eq_ok h
    obtain ⟨v', hreasons, h⟩ := bind_eq_ok h
    cases h
    refine (reads_section hprops).andThen ?_
    refine (readsAll_takeRest unsubAck.reasonCodes).andThen ?_
    exact check (check_ok hreasons)
      (check (check_ok hsome) (done unsubAck))

lemma UnsubAck.roundTrip (h : UnsubAck.write protocol unsubAck = .ok packet) :
    UnsubAck.parse protocol packet = .ok (unsubAck.readBack protocol) := by
  obtain ⟨contents, hcontents, h⟩ := bind_eq_ok h
  obtain ⟨u, hpacketId, hcontents⟩ := bind_eq_ok hcontents
  obtain ⟨encoded, hcontent, hcontents⟩ := bind_eq_ok hcontents
  cases hcontents
  exact parse_control (by decide) h (UnsubAck.readsAll_read hpacketId hcontent)

/-! ### All packets -/

/-- What is read back: the packet itself, up to the reason codes of an MQTT 3.1.1 UNSUBACK. -/
def ControlPacket.readBack (protocol : ProtocolVersion) : ControlPacket → ControlPacket
  | .connect fields => .connect { fields with protocol := protocol }
  | .unsubAck fields => .unsubAck (fields.readBack protocol)
  | packet => packet

/-- **Every packet that is written is read back**, in both versions: all its fields, and its
properties in their order. -/
theorem control_packet_round_trip {protocol : ProtocolVersion} {packet : ControlPacket}
    {bytes : Bytes} (h : packet.write protocol = .ok bytes) :
    packet.parseLike protocol bytes = .ok (packet.readBack protocol) := by
  cases packet with
  | connect fields => exact congrArg (Except.map _) (roundTrip h)
  | connAck fields => exact congrArg (Except.map _) (ConnAck.roundTrip h)
  | publish fields => exact congrArg (Except.map _) (Publish.roundTrip h)
  | ack fields => exact congrArg (Except.map _) (AckPacket.roundTrip h)
  | subscribe fields => exact congrArg (Except.map _) (Subscribe.roundTrip h)
  | subAck fields => exact congrArg (Except.map _) (SubAck.roundTrip h)
  | unsubscribe fields => exact congrArg (Except.map _) (Unsubscribe.roundTrip h)
  | unsubAck fields => exact congrArg (Except.map _) (UnsubAck.roundTrip h)
  | disconnect fields => exact congrArg (Except.map _) (Disconnect.roundTrip h)
  | auth fields => exact congrArg (Except.map _) (Auth.roundTrip h)

/-- A PUBACK with a reason code and a user property. -/
theorem control_packet_round_trip_puback :
    let puback := ControlPacket.ack { packetType := .puback, packetId := 7, reasonCode := 0x10,
                                      properties := [.utf8Pair .userProperty [0x61] [0x62]] }
    puback.write .v5 =
        .ok [0x40, 0x0b, 0x00, 0x07, 0x10, 0x07, 0x26, 0x00, 0x01, 0x61, 0x00, 0x01, 0x62] ∧
      puback.parseLike .v5
          [0x40, 0x0b, 0x00, 0x07, 0x10, 0x07, 0x26, 0x00, 0x01, 0x61, 0x00, 0x01, 0x62] =
        .ok puback :=
  ⟨by decide +kernel, @control_packet_round_trip .v5 (.ack _) _ (by decide +kernel)⟩

end Netz.Mqtt.Packet
