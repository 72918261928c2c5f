/-
Both ends of a connection mean the same topics by the same aliases.

`Agrees` is one direction only: what the sender has remembered the receiver has too.  A PUBLISH
that never reaches the channel leaves the sender's table alone, and one that does is resolved
under the tables of that moment.  Since the channel keeps the order, what is in flight is
resolved, one packet after the other, as the sender meant it.
-/
import Netz.Mqtt.TopicAlias
import Netz.Proofs.ControlPacket

namespace Netz.Mqtt

open Lib List

/-! ### Tables -/

namespace AliasTable

lemma lookup_empty (aliasId : Nat) : empty.lookup aliasId = none := by
  unfold lookup empty
  rw [Vector.getElem?_replicate]
  split <;> rfl

lemma lookup_remember {table : AliasTable} {aliasId : Nat} {topic : Bytes}
    (hpos : aliasId ≠ 0) (hslots : aliasId ≤ topicAliasSlots) (other : Nat) :
    (table.remember aliasId topic).lookup other =
      if aliasId - 1 = other - 1 then some topic else table.lookup other := by
  unfold remember lookup
  rw [Vector.getElem?_setIfInBounds]
  by_cases hsame : aliasId - 1 = other - 1
  · rw [if_pos hsame, if_pos hsame, if_pos (by omega)]
    rfl
  · rw [if_neg hsame, if_neg hsame]

/-- What the sender has remembered the receiver has too. -/
def Agrees (sent received : AliasTable) : Prop :=
  ∀ aliasId topic, sent.lookup aliasId = some topic → received.lookup aliasId = some topic

lemma Agrees.remember {sent received : AliasTable} (h : sent.Agrees received) {aliasId : Nat}
    (hpos : aliasId ≠ 0) (hslots : aliasId ≤ topicAliasSlots) (topic : Bytes) :
    (sent.remember aliasId topic).Agrees (received.remember aliasId topic) := by
  intro other found hfound
  rw [lookup_remember hpos hslots] at hfound ⊢
  by_cases hsame : aliasId - 1 = other - 1
  · rw [if_pos hsame] at hfound ⊢
    exact hfound
  · rw [if_neg hsame] at hfound ⊢
    exact h other found hfound

end AliasTable

/-! ### The automatic alias -/

namespace AliasConnection

variable {topic payload bytes : Bytes} {index : Nat} {sender after receiver : AliasConnection}
  {options : PublishOptions} {refused : Option Error} {publish : Packet.Publish}

lemma findAlias_found {entries : List (Option Bytes)} {start : Nat}
    {emptyIndex found : Option Nat}
    (h : findAlias topic start emptyIndex entries = (some index, found)) :
    start ≤ index ∧ entries[index - start]? = some (some topic) := by
  induction entries generalizing start emptyIndex with
  | nil => simp [findAlias] at h
  | cons entry rest ih =>
    cases entry with
    | none =>
      obtain ⟨hle, hent⟩ := ih h
      refine ⟨Nat.le_of_succ_le hle, ?_⟩
      rw [show index - start = index - (start + 1) + 1 by omega]
      exact hent
    | some stored =>
      unfold findAlias at h
      by_cases hsame : stored = topic
      · rw [if_pos hsame] at h
        cases h
        simp [hsame]
      rw [if_neg hsame] at h
      obtain ⟨hle, hent⟩ := ih h
      refine ⟨Nat.le_of_succ_le hle, ?_⟩
      rw [show index - start = index - (start + 1) + 1 by omega]
      exact hent

lemma topicAlias_append {properties : List Property} (h : topicAlias properties = none)
    (hidx : index < topicAliasSlots) :
    topicAlias (properties ++ [aliasProperty index]) = some (index + 1) := by
  unfold topicAlias at h ⊢
  rw [findSome?_append, h]
  show some (UInt16.ofNat (index + 1)).toNat = some (index + 1)
  unfold topicAliasSlots at hidx
  rw [UInt16.toNat_ofNat', Nat.mod_eq_of_lt (by omega)]

/-- **The topic keeps its meaning** when it is replaced by an alias. -/
theorem fullTopic_prepare (sender : AliasConnection) (topic : Bytes) (properties : List Property) :
    let prepared := sender.prepareAutomaticTopicAlias topic properties
    fullTopic sender.outgoingTopicAliases prepared.1 prepared.2 =
      fullTopic sender.outgoingTopicAliases topic properties := by
  unfold prepareAutomaticTopicAlias
  by_cases hplain : sender.protocol ≠ .v5 ∨ topic = [] ∨ sender.peerTopicAliasMaximum = 0 ∨
      (topicAlias properties).isSome
  · rw [if_pos hplain]
  rw [if_neg hplain]
  obtain ⟨-, hplain⟩ := not_or.mp hplain
  obtain ⟨htopic, hplain⟩ := not_or.mp hplain
  obtain ⟨-, hnone⟩ := not_or.mp hplain
  rw [Option.not_isSome_iff_eq_none] at hnone
  unfold fullTopic
  rw [if_pos htopic]
  split
  · rename_i index found hfind
    obtain ⟨-, hent⟩ := findAlias_found hfind
    rw [Nat.sub_zero, getElem?_take] at hent
    have hlt : index < topicAliasSlots := by
      by_contra hge
      split at hent
      · rw [getElem?_eq_none (by rw [Vector.length_toList]; omega)] at hent
        cases hent
      · cases hent
    have hlookup : sender.outgoingTopicAliases.lookup (index + 1) = some topic := by
      split at hent
      · simp [← Vector.getElem?_toList, hent, AliasTable.lookup]
      · cases hent
    simp [topicAlias_append hnone hlt, hlookup]
  · exact if_pos htopic
  · exact if_pos htopic

/-! ### One packet -/

lemma writePublish_ok
    (h : sender.writePublish topic payload options refused = (.ok bytes, after)) :
    sender.validateOutgoingTopicAlias topic options.properties = .ok () ∧
      (∃ packetId, (publishPacket topic payload options packetId).write sender.protocol =
        .ok bytes) ∧
      ∃ connection, after = { sender with connection := connection }.rememberOutgoingTopicAlias
        topic options.properties := by
  unfold writePublish at h
  obtain ⟨-, h⟩ := of_guard h nofun
  obtain ⟨-, h⟩ := of_guard h nofun
  rcases hvalid : sender.validateOutgoingTopicAlias topic options.properties with e | u
  · rw [hvalid] at h
    cases h
  rw [hvalid] at h
  rcases hres : reservePacketId sender.connection options.qos with ⟨e | packetId, connection⟩
  · rw [hres] at h
    cases h
  rw [hres] at h
  dsimp only at h
  rcases hwrite : (publishPacket topic payload options packetId).write sender.protocol with
    e | written
  · rw [hwrite] at h
    cases h
  rw [hwrite] at h
  dsimp only at h
  obtain ⟨-, h⟩ := of_guard h nofun
  cases refused with
  | some e => cases h
  | none =>
    cases h
    exact ⟨rfl, ⟨packetId, hwrite⟩, connection, rfl⟩

lemma writePublish_error {e : Error}
    (h : sender.writePublish topic payload options refused = (.error e, after)) :
    ∃ connection, after = { sender with connection := connection } := by
  unfold writePublish at h
  split at h
  · cases h
    exact ⟨_, rfl⟩
  split at h
  · cases h
    exact ⟨_, rfl⟩
  split at h
  · cases h
    exact ⟨_, rfl⟩
  split at h
  · cases h
    exact ⟨_, rfl⟩
  split at h
  · cases h
    exact ⟨_, rfl⟩
  split at h
  · cases h
    exact ⟨_, rfl⟩
  split at h
  · cases h
    exact ⟨_, rfl⟩
  · cases h

/-- What stays the same while the tables change. -/
structure SameTerms (a b : AliasConnection) : Prop where
  protocol : a.protocol = b.protocol
  peerTopicAliasMaximum : a.peerTopicAliasMaximum = b.peerTopicAliasMaximum
  incomingTopicAliasMaximum : a.incomingTopicAliasMaximum = b.incomingTopicAliasMaximum

/-- The receiver can follow the sender: it speaks the same version, takes every alias the sender
may use, and knows what the sender has remembered. -/
structure Follows (receiver sender : AliasConnection) : Prop where
  protocol : receiver.protocol = sender.protocol
  maximum : sender.peerTopicAliasMaximum ≤ receiver.incomingTopicAliasMaximum
  tables : sender.outgoingTopicAliases.Agrees receiver.incomingTopicAliases

lemma Follows.of_sameTerms {receiver' sender' : AliasConnection} (h : receiver.Follows sender)
    (hreceiver : receiver'.SameTerms receiver) (hsender : sender'.SameTerms sender)
    (htables : sender'.outgoingTopicAliases.Agrees receiver'.incomingTopicAliases) :
    receiver'.Follows sender' where
  protocol := by rw [hreceiver.protocol, hsender.protocol, h.protocol]
  maximum := by
    rw [hreceiver.incomingTopicAliasMaximum, hsender.peerTopicAliasMaximum]
    exact h.maximum
  tables := htables

lemma validateTopicName_of_write {protocol : ProtocolVersion}
    (h : publish.write protocol = .ok bytes) :
    (publish.topic ≠ [] → validateTopicName publish.topic = .ok ()) ∧
      (publish.topic = [] → (topicAlias publish.properties).isSome) := by
  obtain ⟨contents, hcontents, -⟩ := bind_eq_ok h
  obtain ⟨u, hvalid, -⟩ := bind_eq_ok hcontents
  unfold Packet.validatePublishTopic at hvalid
  refine ⟨fun hne => ?_, fun hempty => ?_⟩
  · rw [if_neg hne] at hvalid
    exact hvalid
  rw [if_pos hempty] at hvalid
  have hboth := failIf_ok hvalid
  rw [Bool.or_eq_false_iff] at hboth
  simpa using hboth.2

lemma applyIncomingTopicAlias_follows (h : receiver.Follows sender) (connection : Connection)
    (hvalid : sender.validateOutgoingTopicAlias publish.topic publish.properties = .ok ())
    (hname : publish.topic ≠ [] → validateTopicName publish.topic = .ok ())
    (halias : publish.topic = [] → (topicAlias publish.properties).isSome) :
    ∃ next, receiver.applyIncomingTopicAlias publish = (.ok { publish with
          topic := fullTopic sender.outgoingTopicAliases publish.topic publish.properties }, next) ∧
      next.Follows ({ sender with connection := connection }.rememberOutgoingTopicAlias
        publish.topic publish.properties) := by
  have hsame : ∀ a : AliasConnection, a.SameTerms a := fun a => ⟨rfl, rfl, rfl⟩
  unfold applyIncomingTopicAlias rememberOutgoingTopicAlias fullTopic
  unfold validateOutgoingTopicAlias at hvalid
  cases hid : topicAlias publish.properties with
  | none =>
    have hne : publish.topic ≠ [] := by
      intro hempty
      have hsome := halias hempty
      simp [hid] at hsome
    rw [hname hne, if_pos hne]
    exact ⟨receiver, rfl, h.of_sameTerms (hsame receiver) ⟨rfl, rfl, rfl⟩ h.tables⟩
  | some aliasId =>
    rw [hid] at hvalid
    dsimp only at hvalid ⊢
    obtain ⟨hbad, hvalid⟩ := of_guard hvalid nofun
    have hmax : sender.peerTopicAliasMaximum.toNat ≤
        receiver.incomingTopicAliasMaximum.toNat := h.maximum
    rw [if_neg (by omega)]
    by_cases hempty : publish.topic = []
    · cases hlookup : sender.outgoingTopicAliases.lookup aliasId with
      | none =>
        rw [if_pos ⟨hempty, hlookup⟩] at hvalid
        cases hvalid
      | some stored =>
        rw [if_neg (not_not.mpr hempty), if_neg (not_not.mpr hempty), if_pos hempty,
          h.tables aliasId stored hlookup, Option.bind_some, hlookup]
        exact ⟨receiver, rfl, h.of_sameTerms (hsame receiver) ⟨rfl, rfl, rfl⟩ h.tables⟩
    rw [if_pos hempty, if_pos hempty, if_neg hempty, hname hempty]
    refine ⟨_, rfl, h.of_sameTerms ⟨rfl, rfl, rfl⟩ ⟨rfl, rfl, rfl⟩ ?_⟩
    exact h.tables.remember (by omega) (by omega) publish.topic

/-- **A PUBLISH that is written is resolved** to what the sender meant by it. -/
theorem readPublish_follows (h : receiver.Follows sender)
    (hwrite : sender.writePublish topic payload options refused = (.ok bytes, after)) :
    ∃ publish next, receiver.readPublish bytes = (.ok publish, next) ∧
      publish.topic = fullTopic sender.outgoingTopicAliases topic options.properties ∧
      publish.payload = payload ∧ next.Follows after := by
  obtain ⟨hvalid, ⟨packetId, hbytes⟩, connection, rfl⟩ := writePublish_ok hwrite
  obtain ⟨hname, halias⟩ := validateTopicName_of_write hbytes
  obtain ⟨next, happly, hnext⟩ := applyIncomingTopicAlias_follows h connection hvalid hname halias
  refine ⟨{ publishPacket topic payload options packetId with
    topic := fullTopic sender.outgoingTopicAliases topic options.properties }, next, ?_, rfl, rfl,
    hnext⟩
  unfold readPublish
  rw [h.protocol, Packet.Publish.roundTrip hbytes]
  exact happly

end AliasConnection

/-! ### Runs -/

namespace AliasLink

open AliasConnection

/-- What is in flight is resolved in its turn, and leaves a receiver that follows the sender. -/
def Resolves (sender receiver : AliasConnection) : List Flight → Prop
  | [] => receiver.Follows sender
  | flight :: rest => ∃ publish next, receiver.readPublish flight.bytes = (.ok publish, next) ∧
      publish.topic = flight.topic ∧ publish.payload = flight.payload ∧
      Resolves sender next rest

variable {sender after receiver : AliasConnection} {flights : List Flight} {link : AliasLink}

/-- The sender may change, as long as every receiver that followed it still can. -/
theorem Resolves.mono (h : Resolves sender receiver flights)
    (hafter : ∀ next : AliasConnection, next.Follows sender → next.Follows after) :
    Resolves after receiver flights := by
  induction flights generalizing receiver with
  | nil => exact hafter receiver h
  | cons flight rest ih =>
    obtain ⟨publish, next, hread, htopic, hpay, hrest⟩ := h
    exact ⟨publish, next, hread, htopic, hpay, ih hrest⟩

lemma Resolves.append {flight : Flight} (h : Resolves sender receiver flights)
    (hlast : ∀ next : AliasConnection, next.Follows sender → Resolves after next [flight]) :
    Resolves after receiver (flights ++ [flight]) := by
  induction flights generalizing receiver with
  | nil => exact hlast receiver h
  | cons first rest ih =>
    obtain ⟨publish, next, hread, htopic, hpay, hrest⟩ := h
    exact ⟨publish, next, hread, htopic, hpay, ih hrest⟩

/-- **The tables agree once the channel is empty**, and everything that arrived was resolved. -/
structure Sound (link : AliasLink) : Prop where
  inFlight : Resolves link.sender link.receiver link.channel
  arrived : ∀ flight result, (flight, result) ∈ link.delivered →
    ∃ publish, result = .ok publish ∧ publish.topic = flight.topic ∧
      publish.payload = flight.payload

lemma Follows.of_connection (h : receiver.Follows sender) (connection : Connection) :
    receiver.Follows { sender with connection := connection } :=
  h.of_sameTerms ⟨rfl, rfl, rfl⟩ ⟨rfl, rfl, rfl⟩ h.tables

lemma Sound.publish (h : link.Sound) (topic payload : Bytes) (options : PublishOptions)
    (refused : Option Error) : (link.publish topic payload options refused).Sound := by
  unfold AliasLink.publish
  have hprepare := link.sender.fullTopic_prepare topic options.properties
  rcases hprep : link.sender.prepareAutomaticTopicAlias topic options.properties with
    ⟨outgoing, properties⟩
  rw [hprep] at hprepare
  dsimp only at hprepare ⊢
  rcases hwrite : link.sender.writePublish outgoing payload
    { options with properties := properties } refused with ⟨e | bytes, after⟩
  · obtain ⟨connection, rfl⟩ := writePublish_error hwrite
    exact ⟨h.inFlight.mono fun next hnext => Follows.of_connection hnext connection, h.arrived⟩
  refine ⟨h.inFlight.append fun next hnext => ?_, h.arrived⟩
  obtain ⟨publish, last, hread, htopic, hpay, hfollows⟩ :=
    readPublish_follows hnext hwrite
  exact ⟨publish, last, hread, htopic.trans hprepare, hpay, hfollows⟩

lemma Sound.deliver (h : link.Sound) : link.deliver.Sound := by
  unfold AliasLink.deliver
  cases hchannel : link.channel with
  | nil => exact h
  | cons flight rest =>
    have hflight := h.inFlight
    rw [hchannel] at hflight
    obtain ⟨publish, next, hread, htopic, hpay, hrest⟩ := hflight
    dsimp only
    rw [hread]
    refine ⟨hrest, fun found result hmem => ?_⟩
    rcases mem_append.mp hmem with hmem | hmem
    · exact h.arrived found result hmem
    rw [mem_singleton] at hmem
    cases hmem
    exact ⟨publish, rfl, htopic, hpay⟩

lemma Sound.step (h : link.Sound) (op : Op) : (link.step op).Sound := by
  cases op with
  | publish topic payload options refused => exact h.publish topic payload options refused
  | acknowledge packetType packetId reasonCode written =>
    exact ⟨h.inFlight.mono fun next hnext => Follows.of_connection hnext _, h.arrived⟩
  | deliver => exact h.deliver

lemma Sound.run (h : link.Sound) (ops : List Op) : (link.run ops).Sound := by
  induction ops generalizing link with
  | nil => exact h
  | cons op rest ih => exact ih (h.step op)

/-- Two ends of a new connection. -/
def start (sender receiver : AliasConnection) : AliasLink where
  sender := { sender with outgoingTopicAliases := .empty }
  receiver := { receiver with incomingTopicAliases := .empty }

/-- **Every PUBLISH that arrives is resolved to the topic that was sent**, whatever writes failed
before. -/
theorem topic_aliases_agree {sender receiver : AliasConnection}
    (hprotocol : receiver.protocol = sender.protocol)
    (hmaximum : sender.peerTopicAliasMaximum ≤ receiver.incomingTopicAliasMaximum) (ops : List Op) :
    ∀ flight result, (flight, result) ∈ ((start sender receiver).run ops).delivered →
      ∃ publish, result = .ok publish ∧ publish.topic = flight.topic ∧
        publish.payload = flight.payload := by
  have hstart : (start sender receiver).Sound := by
    refine ⟨⟨hprotocol, hmaximum, fun aliasId topic h => ?_⟩, fun flight result h => ?_⟩
    · rw [show (start sender receiver).sender.outgoingTopicAliases = .empty from rfl,
        AliasTable.lookup_empty] at h
      cases h
    · cases h
  exact (hstart.run ops).arrived

/-- A topic is sent with its alias, lost, sent as the alias alone, and a third time behind a topic
that finds no slot. -/
theorem topic_aliases_agree_one_slot : let ops : List Op :=
      [.publish [0x61] [1] {} none, .publish [0x61] [2] {} (some .transportFailed),
        .publish [0x61] [3] {} none, .publish [0x62] [4] {} none, .deliver, .deliver, .deliver]
    let link := (start { peerTopicAliasMaximum := 1 } {}).run ops
    (∀ flight result, (flight, result) ∈ link.delivered →
        ∃ publish, result = .ok publish ∧ publish.topic = flight.topic ∧
          publish.payload = flight.payload) ∧
      link.delivered.map (fun arrived => (arrived.1.topic, arrived.1.payload)) =
        [([0x61], [1]), ([0x61], [3]), ([0x62], [4])] :=
  ⟨@topic_aliases_agree { peerTopicAliasMaximum := 1 } {} rfl (by decide) _, by decide +kernel⟩

end AliasLink

end Netz.Mqtt
