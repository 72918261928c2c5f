/-
What sending packets leaves in the accounts.

`Took b b' packets record` says it in one place: the streams noted the frames, both flows and
the congestion window gave up the bytes, the pacer saw the packets that are paced, and the
tracker and the retransmission queue have their records.  It does not say by which path the
packets left, so that the paths can be compared.
-/
import Netz.Proofs.PacketFlow
import Netz.Proofs.SentPrefix
import Netz.Proofs.SendOne
import Netz.Proofs.SendReached

namespace Netz.Quic

open Lib List IndexedTracker

namespace SendAccounts

open Recovery.Queue

variable {P M : Type} {b b' b'' : SendAccounts P M}

/-! ### Records -/

/-- Records and recovery groups of packets, and nothing else. -/
structure Recorded (b b' : SendAccounts P M) (rs : List (SentPacket × Bytes)) : Prop where
  sent : b'.sent = sentAll b.indexRoom b.sent (rs.map (·.1.sending))
  queue : Grown b.recovery b'.recovery (eliciting rs)
  rest : b' = { b with sent := b'.sent, recovery := b'.recovery }

lemma Recorded.refl (h : b.recovery.Sound) : Recorded b b [] := ⟨rfl, h.grown, rfl⟩

lemma Recorded.room {rs : List (SentPacket × Bytes)} (h : Recorded b b' rs) :
    b'.indexRoom = b.indexRoom := by
  rw [h.rest]

lemma Recorded.trans {xs ys : List (SentPacket × Bytes)} (h : Recorded b b' xs)
    (h' : Recorded b' b'' ys) : Recorded b b'' (xs ++ ys) := by
  refine ⟨?_, ?_, ?_⟩
  · rw [h'.sent, h.sent, h.room, map_append, sentAll_append]
  · rw [eliciting_append]
    exact h.queue.trans h'.queue
  · rw [h'.rest, h.rest]

/-- What a packet needs to get a recovery group, when it asks for one. -/
def CanTrack (b : SendAccounts P M) (record : SentPacket) (payload : Bytes) : Prop :=
  record.ackEliciting = true → payload ≠ [] ∧ b.recovery.nextGroupId + 1 ≤ maxU64

variable {record : SentPacket}

lemma recordSent_recorded {u : Unit} (h : b.recordSent record = (.ok u, b')) :
    b'.sent = sentAll b.indexRoom b.sent [record.sending] ∧
      b' = { b with sent := b'.sent } := by
  unfold recordSent at h
  rcases hsent : b.sent.sent record.sending (b.indexRoom record.packetNumber) with ⟨result, sent⟩
  rw [hsent] at h
  cases h
  refine ⟨?_, rfl⟩
  show sent = (b.sent.sent record.sending (b.indexRoom record.packetNumber)).2
  rw [hsent]

lemma trackPacket_recorded (hsound : b.recovery.Sound) {payload : Bytes}
    {group : Option Nat} (h : b.trackPacket record payload = (.ok group, b')) :
    Recorded b b' [(record, payload)] ∧ CanTrack b record payload := by
  unfold trackPacket at h
  by_cases hack : record.ackEliciting = true
  · rw [if_pos hack] at h
    rcases htrack : b.recovery.trackSent record.packetNumber payload with ⟨e | id, recovery⟩
    · simp [htrack] at h
    rw [htrack] at h
    dsimp only at h
    have hgrown := hsound.trackSent_grown htrack
    have hcan : CanTrack b record payload := by
      intro _
      rcases trackSent_cases b.recovery record.packetNumber payload with
        ⟨e, herr⟩ | ⟨hpay, -, hroom, -, -, -⟩
      · simp [herr] at htrack
      · exact ⟨hpay, hroom⟩
    rcases hrecord : ({ b with recovery := recovery } : SendAccounts P M).recordSent record with
      ⟨e | u, b₁⟩
    · simp [hrecord] at h
    rw [hrecord] at h
    cases h
    obtain ⟨hsent, hrest⟩ := recordSent_recorded hrecord
    refine ⟨⟨hsent, ?_, ?_⟩, hcan⟩
    · have helicit : eliciting [(record, payload)] = [(record.packetNumber, payload)] := by
        unfold eliciting
        rw [filter_cons_of_pos (by exact hack)]
        rfl
      rw [helicit, hrest]
      exact hgrown
    · rw [hrest]
  rw [if_neg hack] at h
  rcases hrecord : b.recordSent record with ⟨e | u, b₁⟩
  · simp [hrecord] at h
  rw [hrecord] at h
  cases h
  obtain ⟨hsent, hrest⟩ := recordSent_recorded hrecord
  refine ⟨⟨hsent, ?_, ?_⟩, fun h => absurd h hack⟩
  · have helicit : eliciting [(record, payload)] = [] := by
      unfold eliciting
      rw [filter_cons_of_neg (by exact hack)]
      rfl
    rw [helicit, hrest]
    exact hsound.grown
  · rw [hrest]

lemma Tracked.recordSent_of {next : Nat} (h : b.Tracked next)
    (hnum : record.packetNumber = next) (hsmall : next ≤ varintMax) (recovery : Recovery.Queue) :
    ∃ b', ({ b with recovery := recovery } : SendAccounts P M).recordSent record = (.ok (), b') := by
  have hkept := h.kept (Nat.le_succ_of_le hsmall)
  obtain ⟨hok, -, -⟩ := hkept.sent record.sending (b.indexRoom record.packetNumber)
    (Nat.le_of_eq hnum.symm) (by rw [← hnum] at hsmall; exact hsmall)
  simp [hok, recordSent]

/-- **A new packet is tracked when it can be.** -/
theorem Tracked.trackPacket_of {next : Nat} (h : b.Tracked next) {payload : Bytes}
    (hnum : record.packetNumber = next) (hsmall : next ≤ varintMax)
    (hcan : CanTrack b record payload) :
    ∃ group b', b.trackPacket record payload = (.ok group, b') := by
  unfold trackPacket
  by_cases hack : record.ackEliciting = true
  · obtain ⟨hpay, hroom⟩ := hcan hack
    have hnew : record.packetNumber ∉ b.recovery.numbers := by
      intro hmem
      have hlt := h.queueNumbers _ hmem
      omega
    obtain ⟨q, hq⟩ := trackSent_of b.recovery hpay (h.sound.unknown hnew) hroom
    obtain ⟨b', hb'⟩ := h.recordSent_of hnum hsmall q
    simp [hack, hq, hb']
  obtain ⟨b', hb'⟩ := h.recordSent_of hnum hsmall b.recovery
  have hsame : b.recordSent record = (.ok (), b') := hb'
  simp [hack, hsame]

/-! ### Everything a packet leaves behind -/

/-- The records of packets, with what each carries. -/
def recordsOf (record : PreparedPacket → SentPacket) (packets : List PreparedPacket) :
    List (SentPacket × Bytes) :=
  packets.map (fun p => (record p, p.payload))

/-- **The accounts after packets were sent.** -/
structure Took (pace : Pacing P M) (nowNs : Nat) (record : PreparedPacket → SentPacket)
    (b b' : SendAccounts P M) (packets : List PreparedPacket) : Prop where
  entries : ∀ j, b'.streams.sendEntry j =
    StreamTable.sentOn j (framesOf packets) (b.streams.sendEntry j)
  known : ∀ j, (b.streams.findSendStreamEntry j).isSome = true →
    (b'.streams.findSendStreamEntry j).isSome = true
  table : b'.streams = { b.streams with sendStreams := b'.streams.sendStreams }
  sendFlow : b'.sendFlow =
    { b.sendFlow with used := b.sendFlow.used + countStreamBytes (framesOf packets) }
  bytesInFlight : b'.bytesInFlight = b.bytesInFlight + inFlightBytes packets
  pacer : b'.pacer = b.simulatedPacer pace nowNs (pacedLengths packets)
  sent : b'.sent = sentAll b.indexRoom b.sent
    (packets.map (fun p => (record p).sending))
  sound : b'.recovery.Sound
  pending : b'.recovery.pending = b.recovery.pending ++
    groupsFrom b.recovery.nextGroupId (eliciting (recordsOf record packets))
  rest : b' = { b with
      streams := b'.streams
      sendFlow := b'.sendFlow
      bytesInFlight := b'.bytesInFlight
      pacer := b'.pacer
      sent := b'.sent
      recovery := b'.recovery }

variable {pace : Pacing P M} {nowNs : Nat} {record : PreparedPacket → SentPacket}

lemma framesOf_append (xs ys : List PreparedPacket) :
    framesOf (xs ++ ys) = framesOf xs ++ framesOf ys := flatMap_append

lemma inFlightBytes_append (xs ys : List PreparedPacket) :
    inFlightBytes (xs ++ ys) = inFlightBytes xs + inFlightBytes ys := by
  unfold inFlightBytes
  rw [filter_append, map_append, sum_append]

lemma pacedLengths_append (xs ys : List PreparedPacket) :
    pacedLengths (xs ++ ys) = pacedLengths xs ++ pacedLengths ys := by
  unfold pacedLengths
  rw [filter_append, map_append]

lemma recordsOf_append (xs ys : List PreparedPacket) :
    recordsOf record (xs ++ ys) = recordsOf record xs ++ recordsOf record ys := map_append

lemma Took.refl (h : b.recovery.Sound) : Took pace nowNs record b b [] where
  entries _ := rfl
  known _ := id
  table := rfl
  sendFlow := rfl
  bytesInFlight := rfl
  pacer := rfl
  sent := rfl
  sound := h
  pending := (append_nil _).symm
  rest := rfl

lemma Took.window {packets : List PreparedPacket} (h : Took pace nowNs record b b' packets) :
    b'.congestionWindow = b.congestionWindow := by
  rw [h.rest]

lemma Took.room {packets : List PreparedPacket} (h : Took pace nowNs record b b' packets) :
    b'.indexRoom = b.indexRoom := by
  rw [h.rest]

lemma Took.trans {xs ys : List PreparedPacket} (h : Took pace nowNs record b b' xs)
    (hids : b'.recovery.nextGroupId
      = b.recovery.nextGroupId + (eliciting (recordsOf record xs)).length)
    (h' : Took pace nowNs record b' b'' ys) : Took pace nowNs record b b'' (xs ++ ys) where
  entries j := by
    rw [h'.entries j, h.entries j, framesOf_append, StreamTable.sentOn_append]
  known j hj := h'.known j (h.known j hj)
  table := by rw [h'.table, h.table]
  sendFlow := by
    simp [h'.sendFlow, h.sendFlow, framesOf_append, countStreamBytes_append, Nat.add_assoc]
  bytesInFlight := by
    rw [h'.bytesInFlight, h.bytesInFlight, inFlightBytes_append, Nat.add_assoc]
  pacer := by
    rw [h'.pacer]
    simp [h.window, h.pacer, pacedLengths_append, simulatedPacer]
  sent := by
    rw [h'.sent, h.sent, h.room, map_append, sentAll_append]
  sound := h'.sound
  pending := by
    rw [h'.pending, h.pending, hids, recordsOf_append, eliciting_append, groupsFrom_append,
      append_assoc]
  rest := by rw [h'.rest, h.rest]

end SendAccounts

end Netz.Quic

/-! ### One packet through the single-packet path: what it takes, and when it can

A packet that passes (`Passes`) leaves exactly what `Took` says of it, and it passes where its
frames are valid, it fits, and there is credit, a key and room for its records. -/

namespace Netz.Quic

open Lib

namespace StreamTable

variable {t t' : StreamTable}

/-- Taking the bytes of some frames and noting the frames is sending them. -/
theorem Taken.noted {frames : List Frame} (h : Taken t t' frames) (j : Nat) :
    (t'.noteSentStreams frames).sendEntry j = sentOn j frames (t.sendEntry j) := by
  rw [(noteSentStreams_changes t' frames).sendEntry ?_ j, h.entries j]
  · rfl
  intro i hnone
  refine foldl_noteOn_absent (fun hmem => ?_) _
  have hsome := (h.known i).mpr (.inr hmem)
  simp [hnone] at hsome

end StreamTable

namespace SendAccounts

variable {P M : Type} {b b' : SendAccounts P M}

/-- What the congestion window gives up for a packet. -/
def chargeOf (p : PreparedPacket) : Nat := if packetInFlight p.frames then p.payload.length else 0

lemma inFlightBytes_single (p : PreparedPacket) : inFlightBytes [p] = chargeOf p := by
  unfold inFlightBytes chargeOf
  by_cases hflight : packetInFlight p.frames = true
  · simp [hflight]
  · simp [hflight]

lemma track_recorded (hsound : b.recovery.Sound) {record : SentPacket} {payload : Bytes}
    {group : Option Nat} (h : b.track record payload = (.ok group, b')) :
    Recorded { b with
        bytesInFlight := b.bytesInFlight + if record.inFlight then payload.length else 0 }
      b' [(record, payload)] := by
  unfold track at h
  dsimp only at h
  cases hres : b.reserveCongestion (if record.inFlight then payload.length else 0) with
  | error e =>
    rw [hres] at h
    cases h
  | ok b₁ =>
    rw [hres] at h
    dsimp only at h
    rcases htrack : b₁.trackPacket record payload with ⟨e | group', b₂⟩
    · simp [htrack] at h
    rw [htrack] at h
    cases h
    obtain ⟨hcharged, -⟩ := reserveCongestion_ok hres
    have hqueue : b₁.recovery.Sound := by
      rw [hcharged]
      exact hsound
    rw [← hcharged]
    exact (trackPacket_recorded hqueue htrack).1

/-- **A new packet is tracked where the window has room for it.** -/
theorem Tracked.track_of {next : Nat} (h : b.Tracked next) {record : SentPacket} {payload : Bytes}
    (hnum : record.packetNumber = next) (hsmall : next ≤ varintMax)
    (hcan : CanTrack b record payload) (hwin : (if record.inFlight then payload.length else 0) = 0 ∨
      (if record.inFlight then payload.length else 0) ≤ b.congestionWindow - b.bytesInFlight) :
    ∃ group b', b.track record payload = (.ok group, b') := by
  unfold track
  dsimp only
  rw [reserveCongestion_of hwin]
  have hcharged : Tracked { b with
      bytesInFlight := b.bytesInFlight + if record.inFlight then payload.length else 0 } next :=
    Tracks.congr h rfl rfl
  obtain ⟨group, b₂, htrack⟩ := hcharged.trackPacket_of hnum hsmall hcan
  simp [htrack]

lemma notePacketSent_pacer (pace : Pacing P M) (b : SendAccounts P M) (packet : ShortPacket)
    (nowNs : Nat) (p : PreparedPacket) (hlen : packet.length = p.packetLen) :
    b.notePacketSent pace packet nowNs (packetInFlight p.frames)
      = { b with pacer := b.simulatedPacer pace nowNs (pacedLengths [p]) } := by
  unfold notePacketSent simulatedPacer pacedLengths
  by_cases hflight : packetInFlight p.frames = true
  · simp [hflight, hlen]
  · simp [hflight]

end SendAccounts

namespace Sender

open SendAccounts Recovery.Queue

variable {P M : Type} {s t u : Sender (SendAccounts P M)} {pace : Pacing P M}

lemma shortPacket_length {packetNumber packetNumberLen packetLen : Nat} {payload : Bytes}
    (h : shortPacketLen s.peerConnectionId packetNumber packetNumberLen payload = .ok packetLen)
    (hid : t.peerConnectionId = s.peerConnectionId) (n : Nat) :
    (t.shortPacket n packetNumberLen payload).length = packetLen := by
  simp [shortPacketLen_ok h, hid, ShortPacket.length, ShortPacket.overhead, shortPacket]

/-- **What a packet leaves in the accounts.** -/
theorem Passes.took {frames : List Frame} {a : Attempt} {p : PreparedPacket}
    {b₁ b₂ : SendAccounts P M} {s₁ s₂ : Sender (SendAccounts P M)} (hs : Held s)
    (h : Passes (SendAccounts.books pace) s frames a p b₁ b₂ s₁ s₂) :
    Took pace a.nowNs (sentRecord · a) s.books
        (s₂.afterPacket (SendAccounts.books pace) b₂ p a).books [p] ∧
      (s₂.afterPacket (SendAccounts.books pace) b₂ p a).books.recovery.nextGroupId =
        s.books.recovery.nextGroupId + (eliciting (recordsOf (sentRecord · a) [p])).length := by
  obtain ⟨-, -, -, -, hlen, -, -⟩ := prepareFramesForSend_ok _ h.prepared
  obtain ⟨hsteady₁, -⟩ := prepareAeadForEncryption_steady h.keys
  have hsteady₂ := reserveAntiAmplification_steady h.credit
  have hcharged : Charged s.books b₁ p.frames := reserveFlow_charged h.flow
  have hqueue : b₁.recovery = s.books.recovery := by rw [hcharged.rest]
  have hsound : b₁.recovery.Sound := by
    rw [hqueue]
    exact hs.tracked.sound
  obtain ⟨group, htrack⟩ := h.tracked
  have hrec := track_recorded hsound htrack
  have hlength : (s₂.shortPacket p.packetNumber p.packetNumberLen p.payload).length = p.packetLen :=
    shortPacket_length hlen (hsteady₂.connectionId.trans hsteady₁.connectionId) _
  have hbooks : (s₂.afterPacket (SendAccounts.books pace) b₂ p a).books = { b₂ with
        pacer := b₂.simulatedPacer pace a.nowNs (pacedLengths [p])
        streams := b₂.streams.noteSentStreams p.frames } := by
    show (b₂.notePacketSent pace (s₂.shortPacket p.packetNumber p.packetNumberLen p.payload) a.nowNs
      (packetInFlight p.frames)).noteSentStreams p.frames = _
    rw [notePacketSent_pacer pace b₂ _ a.nowNs p hlength]
    rfl
  have hstreams : b₂.streams = b₁.streams := by rw [hrec.rest]
  have hnoted := StreamTable.noteSentStreams_changes b₁.streams p.frames
  have hframes : framesOf [p] = p.frames := List.append_nil _
  rw [hbooks]
  constructor
  · exact
      { entries := fun j => by
          rw [hstreams, hframes]
          exact hcharged.streams.noted j
        known := fun j hj => by
          rw [hstreams, hnoted.known j]
          exact (hcharged.streams.known j).mpr (.inl hj)
        table := by
          rw [hstreams, hnoted.rest, hcharged.streams.rest]
        sendFlow := by
          rw [hframes, ← hcharged.sendFlow, hrec.rest]
        bytesInFlight := by
          rw [inFlightBytes_single, hrec.rest, hcharged.rest]
          rfl
        pacer := by
          unfold simulatedPacer
          rw [hrec.rest, hcharged.rest]
        sent := by
          rw [hrec.sent, hcharged.rest]
          rfl
        sound := hrec.queue.sound
        pending := by
          rw [hrec.queue.pending, hqueue]
          rfl
        rest := by
          rw [hrec.rest]
          rw [hcharged.rest] }
  dsimp only
  rw [hrec.queue.next, hqueue]
  rfl

end Sender

end Netz.Quic

/-! ### Sending packets one by one

`sendEach` is the yardstick for a batch: the same lists of frames, each sent as a packet of
its own.  `After` says where a sender is after packets that left this way.  One packet that
passes extends it, and so a run of `sendEach` is a run of packets that passed. -/

namespace Netz.Quic.Sender

open Lib List
open SendAccounts Recovery.Queue

/-- Send each list of frames as a packet, up to the first that fails. -/
def sendEach {B : Type} (k : Books B) (s : Sender B) (a : Attempt) :
    List (List Frame) → Except Error Unit × Sender B
  | [] => (.ok (), s)
  | frames :: rest =>
    match s.sendWithEcnAt k frames a with
    | (.error e, s) => (.error e, s)
    | (.ok _, s) => s.sendEach k a rest

variable {P M : Type} {s t u v : Sender (SendAccounts P M)} {pace : Pacing P M}

variable {B : Type} {a : Attempt} {frames : List Frame} {p : PreparedPacket}
  {b₁ b₂ : SendAccounts P M} {s₁ s₂ : Sender (SendAccounts P M)} {packets : List PreparedPacket}

lemma sendEach_cons (k : Books B) (s : Sender B) (a : Attempt) (frames : List Frame)
    (rest : List (List Frame)) :
    s.sendEach k a (frames :: rest) =
      match s.sendWithEcnAt k frames a with
      | (.error e, s) => (.error e, s)
      | (.ok _, s) => s.sendEach k a rest := rfl

lemma sendEach_single (k : Books B) {s t : Sender B}
    (h : s.sendWithEcnAt k frames a = (.ok (), t)) : s.sendEach k a [frames] = (.ok (), t) := by
  rw [sendEach_cons, h]
  rfl

lemma sendEach_append (k : Books B) (s : Sender B) (a : Attempt) (xs ys : List (List Frame)) :
    s.sendEach k a (xs ++ ys) = match s.sendEach k a xs with
      | (.error e, s) => (.error e, s)
      | (.ok _, s) => s.sendEach k a ys := by
  induction xs generalizing s with
  | nil => rfl
  | cons frames rest ih =>
    rw [cons_append, sendEach_cons, sendEach_cons]
    rcases s.sendWithEcnAt k frames a with ⟨e | _, s'⟩
    · rfl
    · exact ih s'

lemma packetsPayloadLen_append (xs ys : List PreparedPacket) :
    packetsPayloadLen (xs ++ ys) = packetsPayloadLen xs + packetsPayloadLen ys := by
  unfold packetsPayloadLen
  rw [map_append, sum_append]

/-- **Where the sender is after these packets.** -/
structure After (pace : Pacing P M) (a : Attempt) (s u : Sender (SendAccounts P M))
    (packets : List PreparedPacket) : Prop where
  config : u.config = s.config
  handshakeStatus : u.handshakeStatus = s.handshakeStatus
  closeInfo : u.closeInfo = s.closeInfo
  idleTimedOut : u.idleTimedOut = s.idleTimedOut
  connectionId : u.peerConnectionId = s.peerConnectionId
  next : u.nextPacketNumber = s.nextPacketNumber + packets.length
  took : Took pace a.nowNs (sentRecord · a) s.books u.books packets
  ids : u.books.recovery.nextGroupId =
    s.books.recovery.nextGroupId + (eliciting (recordsOf (sentRecord · a) packets)).length
  held : Held u
  budget : s.aeadBudget ≤ u.aeadBudget + packets.length
  credit : ∀ n, Credit s (packetsPayloadLen packets + n) → Credit u n

lemma After.refl (hs : Held s) (a : Attempt) : After pace a s s [] where
  config := rfl
  handshakeStatus := rfl
  closeInfo := rfl
  idleTimedOut := rfl
  connectionId := rfl
  next := rfl
  took := Took.refl hs.tracked.sound
  ids := rfl
  held := hs
  budget := le_rfl
  credit n h := by
    rw [show packetsPayloadLen [] + n = n from Nat.zero_add n] at h
    exact h

lemma Passes.budget (h : Passes (SendAccounts.books pace) s frames a p b₁ b₂ s₁ s₂) :
    s.aeadBudget ≤ (s₂.afterPacket (SendAccounts.books pace) b₂ p a).aeadBudget + 1 := by
  by_cases hzero : s.aeadBudget = 0
  · omega
  have hpos : 0 < ({ s with books := b₂ } : Sender (SendAccounts P M)).aeadBudget :=
    Nat.pos_of_ne_zero hzero
  have hspent := (prepareAeadForEncryption_budget s.nextPacketNumber p.packetNumberLen p.payload
    hpos).2
  rw [h.keys] at hspent
  have hsame : (s₂.afterPacket (SendAccounts.books pace) b₂ p a).aeadBudget =
      (s₁.sealShortPacket s.nextPacketNumber p.packetNumberLen p.payload).aeadBudget := by
    have hcred := h.credit
    unfold reserveAntiAmplification at hcred
    split at hcred
    · cases hcred
      rfl
    split at hcred
    · cases hcred
    · cases hcred
      rfl
  rw [hsame]
  exact hspent

/-- **One more packet that passed.** -/
theorem After.step (h : After pace a s v packets)
    (hp : Passes (SendAccounts.books pace) v p.frames a p b₁ b₂ s₁ s₂) (hecn : a.ecn = .notEct)
    (hdelivery : a.delivery = .accepted) (hdone : s.handshakeStatus.needsHandshakeDone = false) :
    After pace a s (s₂.afterPacket (SendAccounts.books pace) b₂ p a) (packets ++ [p]) := by
  obtain ⟨hsteady₁, hrem⟩ := prepareAeadForEncryption_steady hp.keys
  have hsteady₂ := reserveAntiAmplification_steady hp.credit
  have hsteady := hsteady₁.trans hsteady₂
  obtain ⟨htook, hids⟩ := hp.took h.held
  have hsends := hp.sends (SendAccounts.books pace) hecn hdelivery
    (by rw [h.handshakeStatus]; exact hdone)
  have hheld := (held_walk pace).sendWithEcnAt v p.frames a h.held
  rw [hsends] at hheld
  exact
    { config := hsteady.config.trans h.config
      handshakeStatus := hsteady.handshakeStatus.trans h.handshakeStatus
      closeInfo := hsteady.closeInfo.trans h.closeInfo
      idleTimedOut := hsteady.idleTimedOut.trans h.idleTimedOut
      connectionId := hsteady.connectionId.trans h.connectionId
      next := by
        show s₂.nextPacketNumber + 1 = _
        simp [hsteady.next, h.next, Nat.add_assoc]
      took := h.took.trans h.ids htook
      ids := by
        rw [hids, h.ids, recordsOf_append, eliciting_append, length_append, Nat.add_assoc]
      held := hheld
      budget := by
        have hspent := hp.budget
        have hpre := h.budget
        rw [length_append, length_singleton]
        omega
      credit := fun n hn => by
        rw [packetsPayloadLen_append, Nat.add_assoc] at hn
        have hcred := h.credit _ hn
        have hprep : Credit s₁ (p.payload.length + n) := by
          intro remaining hr
          rw [hrem] at hr
          exact hcred remaining hr
        have hleft : Credit s₂ n := reserveAntiAmplification_left hp.credit hprep
        exact hleft }

/-- Every packet passed where those before it left the sender. -/
def EachPassed (pace : Pacing P M) (a : Attempt) (s : Sender (SendAccounts P M))
    (packets : List PreparedPacket) : Prop :=
  ∀ before p after, packets = before ++ p :: after → ∃ v b₁ b₂ s₁ s₂, After pace a s v before ∧
      Passes (SendAccounts.books pace) v p.frames a p b₁ b₂ s₁ s₂

/-- **A run of `sendEach` is a run of packets that passed.** -/
theorem sendEach_after (hs : Held s) (hecn : a.ecn = .notEct)
    (hdone : s.handshakeStatus.needsHandshakeDone = false) {batch : List (List Frame)}
    (h : s.sendEach (SendAccounts.books pace) a batch = (.ok (), u)) :
    ∃ packets, packets.map PreparedPacket.frames = batch ∧ After pace a s u packets ∧
      EachPassed pace a s packets := by
  induction batch using reverseRecOn generalizing u with
  | nil =>
    cases h
    refine ⟨[], rfl, After.refl hs a, ?_⟩
    intro before p after hsplit
    exact absurd (congrArg length hsplit) (by simp)
  | append_singleton batch frames ih =>
    rw [sendEach_append] at h
    rcases hpre : s.sendEach (SendAccounts.books pace) a batch with ⟨e | _, v⟩
    · simp [hpre] at h
    rw [hpre] at h
    obtain ⟨packets, hframes, hafter, hpassed⟩ := ih hpre
    have hone : v.sendWithEcnAt (SendAccounts.books pace) frames a = (.ok (), u) := by
      dsimp only at h
      rw [sendEach_cons] at h
      rcases hsend : v.sendWithEcnAt (SendAccounts.books pace) frames a with ⟨e | _, w⟩
      · simp [hsend] at h
      rw [hsend] at h
      cases h
      rfl
    have hdone' : v.handshakeStatus.needsHandshakeDone = false := by
      rw [hafter.handshakeStatus]
      exact hdone
    obtain ⟨hdelivery, p, b₁, b₂, s₁, s₂, hp, rfl⟩ :=
      sendWithEcnAt_passes (SendAccounts.books pace) hecn hdone' hone
    obtain ⟨rfl, -⟩ := prepareFramesForSend_ok _ hp.prepared
    refine ⟨packets ++ [p], by rw [map_append, hframes]; rfl,
      hafter.step hp hecn hdelivery hdone, ?_⟩
    intro before q after hsplit
    rcases eq_nil_or_concat after with rfl | ⟨after', last, rfl⟩
    · obtain ⟨hsame, hlast⟩ := append_inj' hsplit rfl
      cases hlast
      rw [← hsame]
      exact ⟨v, b₁, b₂, s₁, s₂, hafter, hp⟩
    rw [concat_eq_append, ← cons_append, ← append_assoc] at hsplit
    obtain ⟨hsame, -⟩ := append_inj' hsplit rfl
    exact hpassed before q after' hsame

lemma sendEach_of (hs : Held s) (hecn : a.ecn = .notEct) (hdelivery : a.delivery = .accepted)
    (hdone : s.handshakeStatus.needsHandshakeDone = false)
    (h : ∀ before p after v, packets = before ++ p :: after → After pace a s v before →
      ∃ b₁ b₂ s₁ s₂, Passes (SendAccounts.books pace) v p.frames a p b₁ b₂ s₁ s₂) :
    ∃ u, s.sendEach (SendAccounts.books pace) a (packets.map PreparedPacket.frames) = (.ok (), u) ∧
      After pace a s u packets := by
  induction packets using reverseRecOn with
  | nil => exact ⟨s, rfl, After.refl hs a⟩
  | append_singleton packets p ih =>
    obtain ⟨v, hrun, hafter⟩ := ih (fun before q after w hsplit =>
      h before q (after ++ [p]) w (by rw [hsplit, append_assoc, cons_append]))
    obtain ⟨b₁, b₂, s₁, s₂, hp⟩ := h packets p [] v rfl hafter
    have hsends := hp.sends (SendAccounts.books pace) hecn hdelivery
      (by rw [hafter.handshakeStatus]; exact hdone)
    refine ⟨_, ?_, hafter.step hp hecn hdelivery hdone⟩
    rw [map_append, sendEach_append, hrun]
    exact sendEach_single _ hsends

end Netz.Quic.Sender
