/-
A batch of which the socket took a prefix, against the same prefix sent packet by packet.

The two leave the same accounts exactly when no packet of the prefix carries an ACK frame and
the prefix does not send past a final size that it sets itself.  An ACK frame that leaves in a
batch is not noted in the record of its packet, and the streams of a batch are checked before
any of its packets is sent.
-/
import Netz.Proofs.BatchProgress
import Netz.Proofs.FrameWellFormed

namespace Netz.Quic

open Lib PreparedPacket SendAccounts List

namespace SendAccounts

open Recovery.Queue

variable {P M : Type} {b b' b'' : SendAccounts P M} {pace : Pacing P M} {nowNs : Nat}

/-- The same accounts: a stream without an entry stands for the entry it would get, and only the
next free id of a recovery group may differ. -/
structure SameAccounts (b b' : SendAccounts P M) : Prop where
  streams : ∀ j, b'.streams.sendEntry j = b.streams.sendEntry j
  table : b'.streams = { b.streams with sendStreams := b'.streams.sendStreams }
  recovery : Agree b.recovery b'.recovery
  rest : b' = { b with streams := b'.streams, recovery := b'.recovery }

lemma Took.same {record record' : PreparedPacket → SentPacket} {packets : List PreparedPacket}
    (hrecords : ∀ p ∈ packets, record' p = record p) (h : Took pace nowNs record b b' packets)
    (h' : Took pace nowNs record' b b'' packets) : SameAccounts b' b'' := by
  have hsendings : packets.map (fun p => (record' p).sending) =
      packets.map (fun p => (record p).sending) :=
    map_congr_left (fun p hp => by rw [hrecords p hp])
  have hgroups : recordsOf record' packets = recordsOf record packets :=
    map_congr_left (fun p hp => by rw [hrecords p hp])
  refine ⟨fun j => by rw [h'.entries j, h.entries j], by rw [h'.table, h.table], ?_, ?_⟩
  · exact h.sound.agree h'.sound (by rw [h'.pending, h.pending, hgroups])
  · rw [h'.rest, h'.sendFlow, h'.bytesInFlight, h'.pacer, h'.sent, hsendings, h.rest, ← h.sendFlow,
      ← h.bytesInFlight, ← h.pacer, ← h.sent]

/-- The streams take the frames of these packets, one packet after the other. -/
def Permits (b : SendAccounts P M) (batch : List (List Frame)) : Prop :=
  ∀ before frames after, batch = before ++ frames :: after → PermitsFrames b before.flatten frames

/-- An entry that a stream would get takes every frame that can be encoded. -/
theorem checkSendEntry_fresh (t : StreamTable) {f : StreamFrame} {bytes : Bytes}
    (h : Frame.write (.stream f) [] = .ok bytes) :
    StreamTable.checkSendEntry (t.freshEntry f.streamId) f = .granted := by
  unfold Frame.write Frame.wireLen at h
  dsimp only at h
  cases hend : validateEndOffset f.offset f.data.length with
  | error e =>
    rw [hend] at h
    cases h
  | ok u =>
    have hsmall : f.offset + f.data.length ≤ maxU64 :=
      Nat.le_trans (validateEndOffset_ok hend) (by decide)
    simp [hsmall, StreamTable.checkSendEntry, StreamTable.freshEntry, checkedAdd]

lemma encodeFrames_each {frames : List Frame} {payload : Bytes}
    (h : Sender.encodeFrames (books pace) frames = .ok payload) {frame : Frame}
    (hmem : frame ∈ frames) : ∃ bytes, frame.write [] = .ok bytes := by
  induction frames generalizing payload with
  | nil => cases hmem
  | cons first rest ih =>
    unfold Sender.encodeFrames at h
    cases hfirst : (books pace).frameBytes first with
    | error e =>
      rw [hfirst] at h
      cases h
    | ok bytes =>
      rw [hfirst] at h
      cases hrest : Sender.encodeFrames (books pace) rest with
      | error e =>
        rw [hrest] at h
        cases h
      | ok others =>
        rcases mem_cons.mp hmem with rfl | hmem
        · exact ⟨bytes, hfirst⟩
        · exact ih hrest hmem

end SendAccounts

namespace Sender

open SendAccounts Recovery.Queue

variable {P M : Type} {s t u v : Sender (SendAccounts P M)} {pace : Pacing P M} {a : Attempt}

/-! ### What sending one by one shows -/

lemma checkStreams_each {B : Type} {k : Books B} {s : Sender B} {frames : List Frame}
    (h : s.checkStreams k frames = .granted) :
    ∀ frame ∈ frames, k.checkStream s.books frame = .granted := by
  induction frames with
  | nil => simp
  | cons frame rest ih =>
    unfold checkStreams at h
    cases hcheck : k.checkStream s.books frame with
    | refused | blocked => simp [hcheck] at h
    | granted =>
      rw [hcheck] at h
      intro f hf
      rcases mem_cons.mp hf with rfl | hf
      · exact hcheck
      · exact ih h f hf

lemma Passes.permits {p : PreparedPacket} {before : List PreparedPacket} {b₁ b₂ : SendAccounts P M}
    {s₁ s₂ : Sender (SendAccounts P M)} (hv : After pace a s v before)
    (h : Passes (SendAccounts.books pace) v p.frames a p b₁ b₂ s₁ s₂) :
    PermitsFrames s.books (framesOf before) p.frames := by
  intro f hf
  rw [← hv.took.entries f.streamId]
  have hgranted : v.books.validateStreamFrameForSend f = .granted :=
    checkStreams_each h.streams (.stream f) hf
  cases hfind : v.books.streams.findSendStreamEntry f.streamId with
  | some entry =>
    unfold validateStreamFrameForSend at hgranted
    rw [hfind] at hgranted
    rw [sendEntry_of_known hfind]
    exact hgranted
  | none =>
    obtain ⟨-, -, henc, -⟩ := prepareFramesForSend_ok _ h.prepared
    obtain ⟨bytes, hbytes⟩ := encodeFrames_each henc hf
    unfold StreamTable.sendEntry
    rw [hfind]
    exact checkSendEntry_fresh _ hbytes

variable {packets : List PreparedPacket}

lemma EachPassed.permits (h : EachPassed pace a s packets) :
    Permits s.books (packets.map PreparedPacket.frames) := by
  intro before frames after hsplit
  obtain ⟨first, last, rfl, rfl, hlast⟩ := map_eq_append_iff.mp hsplit
  obtain ⟨p, rest, rfl, rfl, rfl⟩ := map_eq_cons_iff.mp hlast
  obtain ⟨v, b₁, b₂, s₁, s₂, hv, hp⟩ := h first p rest rfl
  exact hp.permits hv

lemma EachPassed.numbered (h : EachPassed pace a s packets) :
    Numbered s.nextPacketNumber packets := by
  have hnum : ∀ before p after, packets = before ++ p :: after →
      p.packetNumber = s.nextPacketNumber + before.length ∧ p.packetNumber ≤ maxPacketNumber := by
    intro before p after hsplit
    obtain ⟨v, b₁, b₂, s₁, s₂, hv, hp⟩ := h before p after hsplit
    obtain ⟨-, hnum, -, -, hlen, -, -⟩ := prepareFramesForSend_ok _ hp.prepared
    refine ⟨by rw [hnum, hv.next], ?_⟩
    rw [hnum]
    exact shortPacketLen_number hlen
  have hall : packets.map packetNumber = range' s.nextPacketNumber packets.length := by
    refine ext_getElem (by simp) (fun i h₁ h₂ => ?_)
    rw [length_map] at h₁
    have hsplit : packets = packets.take i ++ packets[i] :: packets.drop (i + 1) := by
      rw [getElem_cons_drop, take_append_drop]
    rw [getElem_map, getElem_range', (hnum _ _ _ hsplit).1, length_take,
      Nat.min_eq_left h₁.le]
    omega
  refine ⟨?_, fun p hp => ?_, fun p hp => ?_⟩
  · rw [hall]
    exact pairwise_lt_range'
  · obtain ⟨before, after, hsplit⟩ := append_of_mem hp
    simp [(hnum before p after hsplit).1]
  · obtain ⟨before, after, hsplit⟩ := append_of_mem hp
    exact (hnum before p after hsplit).2

lemma Took.records {record : PreparedPacket → SentPacket} {b : SendAccounts P M} {nowNs : Nat}
    (hs : Held s) (h : Took pace nowNs record s.books b packets)
    (hfresh : IndexedTracker.Fresh s.nextPacketNumber (packets.map (fun p => (record p).sending))) :
    b.sent.packets = s.books.sent.packets ++ packets.map (fun p => (record p).sending.packet) := by
  have happ := (hs.tracked.kept hs.small).appended s.books.indexRoom hfresh
  rw [h.sent, happ.packets, map_map]
  rfl

lemma largestAckFrameSent_of_records {packets sent : List PreparedPacket}
    (h : sent.map (fun p => (batchRecord p a).sending.packet) =
      packets.map (fun p => (sentRecord p a).sending.packet)) :
    ∀ frames ∈ packets.map PreparedPacket.frames, largestAckFrameSent frames = none := by
  intro frames hframes
  obtain ⟨p, hp, rfl⟩ := mem_map.mp hframes
  have hmem : (sentRecord p a).sending.packet ∈ packets.map (fun p => (sentRecord p a).sending.packet) :=
    mem_map_of_mem hp
  rw [← h] at hmem
  obtain ⟨q, -, hq⟩ := mem_map.mp hmem
  exact (congrArg SentPacket.largestAcknowledgedSent hq).symm

/-! ### The prefix that left -/

/-- **The call left what sending the first `count` packets one by one would have left.** -/
def CommitsPrefix (pace : Pacing P M) (s t : Sender (SendAccounts P M)) (packets : List (List Frame))
    (a : Attempt) (count : Nat) : Prop :=
  ∃ u, s.sendEach (SendAccounts.books pace) { a with ecn := .notEct, delivery := .accepted }
      (packets.take count) = (.ok (), u) ∧ SameAccounts u.books t.books

/-- The numbers of the packets that were protected, and no others, are used up. -/
def UsesNumbers {B : Type} (s t : Sender B) : Prop :=
  ∃ sealed, sealedPackets t.wire = sealedPackets s.wire ++ sealed ∧
    sealed.map ShortPacket.packetNumber = range' s.nextPacketNumber sealed.length ∧
    t.nextPacketNumber = s.nextPacketNumber + sealed.length

/-- No packet carries an ACK frame, and the streams take the packets in turn. -/
def Plain (b : SendAccounts P M) (batch : List (List Frame)) : Prop :=
  (∀ frames ∈ batch, largestAckFrameSent frames = none) ∧ Permits b batch

lemma Plain.nil (b : SendAccounts P M) : Plain b [] := by
  refine ⟨by simp, ?_⟩
  intro before frames after hsplit
  exact absurd (congrArg length hsplit) (by simp)

lemma commitsPrefix_none (hs : Held s) (packets : List (List Frame)) (a : Attempt)
    (hbooks : t.books = s.books) : CommitsPrefix pace s t packets a 0 := by
  refine ⟨s, rfl, ?_⟩
  rw [hbooks]
  exact ⟨fun _ => rfl, rfl, hs.tracked.sound.agree hs.tracked.sound rfl, rfl⟩

/-- **A prefix of a batch is committed exactly when it is plain.** -/
theorem commitsPrefix_iff (hs : Held s) (hdone : s.handshakeStatus.needsHandshakeDone = false)
    (hclosed : ¬ (s.closeInfo = true ∨ s.idleTimedOut = true)) {packets : List (List Frame)}
    {planned : List PreparedPacket} {count : Nat}
    (hplan : Planned (SendAccounts.books pace) s a.nowNs packets planned)
    (hleaves : Leaves pace { a with ecn := .notEct } s t planned count) :
    CommitsPrefix pace s t packets a count ↔ Plain s.books (packets.take count) := by
  have hframes : (planned.take count).map PreparedPacket.frames = packets.take count := by
    obtain ⟨more, hmore⟩ := hplan.frames
    rw [← hmore, take_append_of_le_length (by rw [length_map]; exact hleaves.bounded),
      map_take]
  have hsame : ∀ p, largestAckFrameSent p.frames = none → batchRecord p { a with ecn := .notEct } =
        sentRecord p { a with ecn := .notEct, delivery := .accepted } := by
    intro p hnone
    show ({ sentRecord p { a with ecn := .notEct } with largestAcknowledgedSent := none } : SentPacket)
      = { sentRecord p { a with ecn := .notEct } with
          largestAcknowledgedSent := largestAckFrameSent p.frames }
    rw [hnone]
  constructor
  · rintro ⟨u, hrun, hsameAccounts⟩
    obtain ⟨each, heach, hafter, hpassed⟩ := sendEach_after hs rfl hdone hrun
    rw [← heach]
    refine ⟨?_, hpassed.permits⟩
    have htracked : t.books.sent.packets = u.books.sent.packets := by
      rw [hsameAccounts.rest]
    have hsub := hplan.numbered.sublist (take_sublist count planned)
    rw [Took.records hs hleaves.took (hsub.fresh (fun _ => rfl) (fun _ => rfl)),
      Took.records hs hafter.took (hpassed.numbered.fresh (fun _ => rfl) (fun _ => rfl)),
      append_cancel_left_eq] at htracked
    exact largestAckFrameSent_of_records
      (a := { a with ecn := .notEct, delivery := .accepted }) htracked
  rintro ⟨hacks, hpermits⟩
  have hpasses : ∀ before p after v, planned.take count = before ++ p :: after →
      After pace { a with ecn := .notEct, delivery := .accepted } s v before →
      ∃ b₁ b₂ s₁ s₂, Passes (SendAccounts.books pace) v p.frames
        { a with ecn := .notEct, delivery := .accepted } p b₁ b₂ s₁ s₂ := by
    intro before p after v hsplit hv
    have hpos : count ≠ 0 := by
      rintro rfl
      exact absurd (congrArg length hsplit) (by simp)
    obtain ⟨b₁, hcharged, heach⟩ := hleaves.charged hpos
    have hwhole : planned = before ++ p :: (after ++ planned.drop count) := by
      rw [← cons_append, ← append_assoc, ← hsplit, take_append_drop]
    refine passes_next (a := { a with ecn := .notEct, delivery := .accepted }) hclosed hplan
      hcharged heach (hleaves.credit hpos) hwhole hv ?_
    refine hpermits (before.map PreparedPacket.frames) p.frames (after.map PreparedPacket.frames) ?_
    rw [← hframes, hsplit, map_append, map_cons]
  obtain ⟨u, hrun, hafter⟩ := sendEach_of hs rfl rfl hdone hpasses
  rw [hframes] at hrun
  refine ⟨u, hrun, Took.same (fun p hp => ?_) hafter.took hleaves.took⟩
  refine hsame p (hacks p.frames ?_)
  rw [← hframes]
  exact mem_map_of_mem hp

/-! ### Packet numbers -/

lemma UsesNumbers.quiet {B : Type} {s t : Sender B} (hwire : t.wire = s.wire)
    (hnext : t.nextPacketNumber = s.nextPacketNumber) : UsesNumbers s t :=
  ⟨[], by rw [hwire, append_nil], rfl, hnext⟩

lemma Sends.usesNumbers {B : Type} {s t : Sender B} {sealed sent : List ShortPacket}
    {offer : List PacketSize} (h : Sends s t sealed sent offer)
    (hnext : t.nextPacketNumber = s.nextPacketNumber + sealed.length) : UsesNumbers s t := by
  refine ⟨sealed, ?_, h.numbers, hnext⟩
  rw [h.wire, sealedPackets_append, sealedPackets_append, sealedPackets_sealed, sealedPackets_sent,
    append_nil]

/-! ### The call -/

/-- A batch that owes HANDSHAKE_DONE is its first packet, sent on its own. -/
theorem sendManyProgressAt_done (hlim : s.WithinLimit)
    (hdone : s.handshakeStatus.needsHandshakeDone = true) {packets : List (List Frame)}
    {delivery : BatchDelivery} {r : BatchSendResult}
    (h : s.sendManyProgressAt (SendAccounts.books pace) packets a delivery = (.ok r, t)) :
    UsesNumbers s t ∧ ∃ u, s.sendEach (SendAccounts.books pace)
      { a with ecn := .notEct, delivery := .accepted } (packets.take r.sentCount) = (.ok (), u) ∧
      u = t := by
  unfold sendManyProgressAt at h
  cases packets with
  | nil =>
    cases h
    exact ⟨UsesNumbers.quiet rfl rfl, _, rfl, rfl⟩
  | cons first rest =>
    dsimp only at h
    obtain ⟨hclosed, h⟩ := of_guard h nofun
    rw [if_pos hdone] at h
    rcases hsend : s.sendWithEcnAt (SendAccounts.books pace) first { a with ecn := .notEct } with
      ⟨e | _, u⟩
    · simp [hsend] at h
    rw [hsend] at h
    cases h
    have hdelivery : a.delivery = .accepted := (sendWithEcnAtRaw_passes _ hsend).1
    have hattempt : ({ a with ecn := .notEct } : Attempt) =
        { a with ecn := .notEct, delivery := .accepted } := by rw [hdelivery]
    refine ⟨?_, t, ?_, rfl⟩
    · obtain ⟨sealed, sent, hsends, hnext, htaken⟩ :=
        (sendsOne_walk (SendAccounts.books pace)).sendWithEcnAt s first { a with ecn := .notEct } hlim
      rw [hsend] at hsends hnext
      rcases htaken with rfl | hrefused
      · exact hsends.usesNumbers hnext
      · simp [show a.delivery = .refused from hrefused] at hdelivery
    · rw [← hattempt]
      exact sendEach_single _ hsend

/-- The call takes the batch to the socket, or fails before: it neither turns into a packet with
HANDSHAKE_DONE that fails nor into a frame that says what is blocked. -/
def Batched (pace : Pacing P M) (s : Sender (SendAccounts P M)) (packets : List (List Frame))
    (a : Attempt) (result : Except Error BatchSendResult) : Prop :=
  (∃ r, result = .ok r) ∨ (s.handshakeStatus.needsHandshakeDone = false ∧
    ∀ control e, s.planBatch (SendAccounts.books pace) packets { a with ecn := .notEct }
      ≠ .blocked control e)

/--
**A partial batch commits the prefix that left exactly when that prefix is plain,** or when it
was sent through the single-packet path because HANDSHAKE_DONE was due.  The numbers of the
packets that were protected are used up in any case.
-/
theorem sendManyProgressAt_commits {packets : List (List Frame)} {delivery : BatchDelivery}
    {result : Except Error BatchSendResult} (hs : Reached pace s)
    (h : s.sendManyProgressAt (SendAccounts.books pace) packets a delivery = (result, t))
    (hb : Batched pace s packets a result) :
    (CommitsPrefix pace s t packets a (sentOf result) ∧ UsesNumbers s t) ↔
      (s.handshakeStatus.needsHandshakeDone = true ∨
        Plain s.books (packets.take (sentOf result))) := by
  have hheld := hs.held
  have hlimit := hs.withinLimit
  cases hdone : s.handshakeStatus.needsHandshakeDone with
  | true =>
    have hok : ∃ r, result = .ok r := by
      rcases hb with hok | ⟨hno, -⟩
      · exact hok
      · simp [hdone] at hno
    obtain ⟨r, rfl⟩ := hok
    obtain ⟨hnumbers, u, hrun, rfl⟩ := sendManyProgressAt_done hlimit hdone h
    have hafter := sendManyProgressAt_held pace hheld packets a delivery
    rw [h] at hafter
    have hsound := hafter.tracked.sound
    have hsame : SameAccounts u.books u.books := ⟨fun _ => rfl, rfl, hsound.agree hsound rfl, rfl⟩
    exact ⟨fun _ => .inl rfl, fun _ => ⟨⟨u, hrun, hsame⟩, hnumbers⟩⟩
  | false =>
    have hnone : ∀ e, result = .error e → t.books = s.books → t.wire = s.wire →
        t.nextPacketNumber = s.nextPacketNumber →
        ((CommitsPrefix pace s t packets a (sentOf result) ∧ UsesNumbers s t) ↔
          (false = true ∨ Plain s.books (packets.take (sentOf result)))) := by
      rintro e rfl hbooks hwire hnext
      exact ⟨fun _ => .inr (Plain.nil _), fun _ =>
        ⟨commitsPrefix_none hheld packets a hbooks, UsesNumbers.quiet hwire hnext⟩⟩
    cases packets with
    | nil =>
      cases h
      exact ⟨fun _ => .inr (Plain.nil _), fun _ =>
        ⟨commitsPrefix_none hheld [] a rfl, UsesNumbers.quiet rfl rfl⟩⟩
    | cons first rest =>
      rcases sendManyProgressAt_cases _ hdone (hb.imp_right And.right) h with
        ⟨⟨e, he⟩, hbooks, hwire, hnext⟩ | ⟨hclosed, planned, hplanned, hsizes, hsend⟩
      · exact hnone e he hbooks hwire hnext
      have hleaves := sendPackets_leaves (a := { a with ecn := .notEct }) hheld rfl hplanned
        hsizes hsend
      have hiff := commitsPrefix_iff hheld hdone hclosed hplanned hleaves
      have hnumbers : UsesNumbers s t := by
        obtain ⟨sealed, sent, hsends, hnext⟩ := sendPackets_sends (SendAccounts.books pace) hlimit
          planned hsizes s.needsKeyUpdate { a with ecn := .notEct } delivery
        rw [hsend] at hsends hnext
        exact hsends.usesNumbers hnext
      rw [and_iff_left hnumbers, hiff]
      simp

/-- No pacing and no search for the path MTU. -/
def unpaced : Pacing Unit Unit where
  deadlineAt _ _ _ _ := none
  onPacketSentAt _ _ _ _ := ()
  currentSize _ := none
  probeSize _ _ := none
  onProbeSent _ _ := ()

def openAccounts : SendAccounts Unit Unit where
  streams :=
    { config := { localEndpoint := .server }
      recvFlow := { limit := 0, window := 0, maxWindow := 0 }
      peerMaxStreamsBidi := 0
      peerMaxStreamsUni := 0
      recvMaxStreamsBidi := 0
      recvMaxStreamsUni := 0 }
  sendFlow := { limit := 1000 }
  congestionWindow := 1000
  pacer := ()
  pmtud := ()

def openSender : Sender (SendAccounts Unit Unit) :=
  init { localEndpoint := .server } [] (fun _ => true) openAccounts

/-- The socket takes the first of two PINGs. -/
theorem sendManyProgressAt_commits_ping :
    ∃ t, openSender.sendManyProgressAt (SendAccounts.books unpaced) [[.ping], [.ping]] {}
        (.progress 1 false) = (.ok ⟨1, 2, false⟩, t) ∧
      ((CommitsPrefix unpaced openSender t [[.ping], [.ping]] {} (sentOf (.ok ⟨1, 2, false⟩)) ∧
        UsesNumbers openSender t) ↔
      (openSender.handshakeStatus.needsHandshakeDone = true ∨ Plain openSender.books [[.ping]])) := by
  have hreached : Reached unpaced openSender := Reached.init _ _ _ openAccounts rfl rfl
  have hcall : ∃ t, openSender.sendManyProgressAt (SendAccounts.books unpaced) [[.ping], [.ping]] {}
      (.progress 1 false) = (.ok ⟨1, 2, false⟩, t) := ⟨_, rfl⟩
  obtain ⟨t, ht⟩ := hcall
  exact ⟨t, ht, sendManyProgressAt_commits hreached ht (.inl ⟨_, rfl⟩)⟩

/-- An ACK frame for packet 7, and a PING. -/
def ackAndPing : List Frame :=
  [.ack { largestAcknowledged := 7, ackDelay := 0, firstAckRange := 0 }, .ping]

/-- The batch does not remember which packets its ACK frame was about. -/
theorem batch_forgets_ack :
    ¬ ∀ (s t : Sender (SendAccounts Unit Unit)) (packets : List (List Frame)) (a : Attempt)
      (delivery : BatchDelivery) (result : Except Error BatchSendResult), Reached unpaced s →
      s.sendManyProgressAt (SendAccounts.books unpaced) packets a delivery = (result, t) →
      Batched unpaced s packets a result →
      CommitsPrefix unpaced s t packets a (sentOf result) ∧ UsesNumbers s t := by
  intro hall
  have hbatch : ∃ t, openSender.sendManyProgressAt (SendAccounts.books unpaced)
      [ackAndPing, [.ping]] {} (.progress 1 false) = (.ok ⟨1, 2, false⟩, t) ∧
      t.books.sent.packets.map SentPacket.largestAcknowledgedSent = [none] := ⟨_, rfl, rfl⟩
  have hsingle : ∃ u, openSender.sendEach (SendAccounts.books unpaced) {} [ackAndPing] = (.ok (), u) ∧
      u.books.sent.packets.map SentPacket.largestAcknowledgedSent = [some 7] := ⟨_, rfl, rfl⟩
  obtain ⟨t, hcall, hforgot⟩ := hbatch
  obtain ⟨u, hone, hnoted⟩ := hsingle
  have hreached : Reached unpaced openSender := Reached.init _ _ _ openAccounts rfl rfl
  obtain ⟨⟨v, hrun, hsame⟩, -⟩ := hall openSender t [ackAndPing, [.ping]] {} (.progress 1 false) _
    hreached hcall (.inl ⟨_, rfl⟩)
  have hv : openSender.sendEach (SendAccounts.books unpaced) {} [ackAndPing] = (.ok (), v) := hrun
  rw [hone] at hv
  cases hv
  rw [hsame.rest] at hforgot
  cases hforgot.symm.trans hnoted

end Sender

end Netz.Quic
