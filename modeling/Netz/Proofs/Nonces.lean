/-
The nonces of a sender.

Under one generation of keys the nonce of a packet is its packet number, so two sealing
operations with the same generation and number must be given the same packet.  The batch path
`sendManyProgressAt` advances `nextPacketNumber` past everything it protected, whatever the
socket says.  The single-packet paths and the PTO probes advance it only past what the socket
took: a packet that is protected and then refused leaves its number to the next packet.

`nonces_unique` is what remains true: as long as the socket takes what those paths have
protected, no number is ever protected twice.
-/
import Netz.Lib.Machine
import Netz.Proofs.SendBatch

namespace Netz.Quic

open Lib List

/-- Every packet that was given to the AEAD, in order. -/
def sealedPackets (wire : List WireEvent) : List ShortPacket :=
  wire.filterMap fun
    | .sealed packet => some packet
    | _ => none

@[simp] lemma sealedPackets_append (xs ys : List WireEvent) :
    sealedPackets (xs ++ ys) = sealedPackets xs ++ sealedPackets ys :=
  filterMap_append

@[simp] lemma sealedPackets_sealed (packets : List ShortPacket) :
    sealedPackets (packets.map .sealed) = packets := by simp [sealedPackets]

@[simp] lemma sealedPackets_sent (packets : List ShortPacket) :
    sealedPackets (packets.map .sent) = [] := by simp [sealedPackets]

namespace Sender

variable {B : Type} {s t : Sender B} (k : Books B)

/-! ### Every call at once -/

def Op.isSend : Op B → Bool
  | .sendWithEcnAt _ _ | .sendTrackedFrames _ _ | .sendPmtuProbeAt _ _
  | .retransmitCandidateAt _ _ _ | .retransmitPtoProbeBatchAt _ _ _ _
  | .sendManyProgressAt _ _ _ => true
  | _ => false

/-- The packets that a call would send. -/
def offer (s : Sender B) : Op B → List PacketSize
  | .sendWithEcnAt frames a => s.sendOffer k frames a
  | .sendTrackedFrames frames a => s.framesOffer k (s.withHandshakeDone frames) a
  | .sendPmtuProbeAt peerMaxUdpPayload _ => s.pmtuOffer k peerMaxUdpPayload
  | .retransmitCandidateAt candidate _ _ => s.candidateOffer k candidate
  | .retransmitPtoProbeBatchAt first remaining a _ => s.probesOffer k first remaining a
  | .sendManyProgressAt packets a _ => s.batchOffer k packets a
  | _ => []

/--
The socket takes every packet that a single-packet path or a batch of PTO probes has
protected, and the AEAD limit does not interrupt such a batch.  Nothing is asked of the
batches of `sendManyProgressAt`.
-/
def SocketTakes (s : Sender B) : Op B → Prop
  | .sendWithEcnAt _ a | .sendTrackedFrames _ a | .sendPmtuProbeAt _ a
  | .retransmitCandidateAt _ _ a | .sendManyProgressAt _ a _ => a.delivery ≠ .refused
  | .retransmitPtoProbeBatchAt first remaining a delivery =>
    s.TakesBatch (s.probesOffer k first remaining a).length delivery
  | _ => True

lemma answer_state {α : Type} (r : Except Error α × Sender B) : (answer r).2 = r.2 := by
  obtain ⟨result, t⟩ := r
  cases result with
  | error | ok => rfl

lemma SendsOne.taken {offer : List PacketSize} {a : Attempt} (h : SendsOne s t offer a) :
    ∃ sealed sent, Sends s t sealed sent offer ∧
      (a.delivery ≠ .refused → t.nextPacketNumber = s.nextPacketNumber + sealed.length) := by
  obtain ⟨sealed, sent, hsends, hnext, hvain⟩ := h
  refine ⟨sealed, sent, hsends, fun htakes => ?_⟩
  rcases hvain with hall | hrefused
  · rw [hnext, hall]
  · exact absurd hrefused htakes

/-- **Every send path does what it offers**, and uses up the numbers it protects unless the
socket gets in the way. -/
theorem step_sends (hlim : s.WithinLimit) (op : Op B) (hop : op.isSend = true) :
    ∃ sealed sent, Sends s (s.step k op).2 sealed sent (s.offer k op) ∧
      (s.SocketTakes k op →
        (s.step k op).2.nextPacketNumber = s.nextPacketNumber + sealed.length) := by
  cases op with
  | sendWithEcnAt frames a => exact ((sendsOne_walk k).sendWithEcnAt s frames a hlim).taken
  | sendTrackedFrames frames a => exact ((sendsOne_walk k).sendTrackedFrames s frames a hlim).taken
  | sendPmtuProbeAt peerMaxUdpPayload a =>
    simp only [step, answer_state]
    exact ((sendsOne_walk k).sendPmtuProbeAt s peerMaxUdpPayload a hlim).taken
  | retransmitCandidateAt candidate mode a =>
    exact ((sendsOne_walk k).retransmitCandidateAt s candidate mode a hlim).taken
  | retransmitPtoProbeBatchAt first remaining a delivery =>
    simp only [step, answer_state]
    obtain ⟨sealed, sent, hsends, hnext, hall⟩ :=
      retransmitPtoProbeBatchAt_sends k hlim first remaining a delivery
    refine ⟨sealed, sent, hsends, fun htakes => ?_⟩
    rw [hnext, hall htakes]
  | sendManyProgressAt packets a delivery =>
    simp only [step, answer_state]
    rcases sendManyProgressAt_sends k hlim packets a delivery with hone | hall
    · exact hone.taken
    · obtain ⟨sealed, sent, hsends, hnext⟩ := hall
      exact ⟨sealed, sent, hsends, fun _ => hnext⟩
  | initiateKeyUpdate | acceptPeerKeyUpdate | receiveDatagram | setPeerAddressValidated
  | beginPeerMigration | importSentEarlyData | other => cases hop

/-! ### Calls that do not send -/

/-- No packet is protected or sent, and no number is taken back. -/
structure Silent (s t : Sender B) : Prop where
  sealed : sealedPackets t.wire = sealedPackets s.wire
  next : s.nextPacketNumber ≤ t.nextPacketNumber
  limit : s.WithinLimit → t.WithinLimit

lemma Silent.refl (s : Sender B) : Silent s s := ⟨rfl, le_rfl, id⟩

lemma advanceSendKeyPhase_silent (s : Sender B) (packetNumber : Nat) :
    Silent s (s.advanceSendKeyPhase packetNumber) :=
  ⟨rfl, le_rfl, id⟩

lemma startUnvalidatedPath_silent (s : Sender B) : Silent s s.startUnvalidatedPath where
  sealed := by simp [startUnvalidatedPath, sealedPackets]
  next := le_rfl
  limit := fun _ => Nat.zero_le _

lemma arrive_silent (s : Sender B) (bytes : Nat) : Silent s (s.arrive bytes) where
  sealed := by simp [arrive, sealedPackets]
  next := le_rfl
  limit := id

lemma setPeerAddressValidated_silent (s : Sender B) (validated : Bool) :
    Silent s (s.setPeerAddressValidated validated) := by
  unfold setPeerAddressValidated
  split
  · exact ⟨rfl, le_rfl, fun _ => Nat.zero_le _⟩
  split
  · exact ⟨by simp [sealedPackets], le_rfl, id⟩
  · exact Silent.refl s

lemma recordPeerAddressBytesReceived_silent (s : Sender B) (bytes : Nat) :
    Silent s (s.recordPeerAddressBytesReceived bytes) := by
  unfold recordPeerAddressBytesReceived
  split
  · exact Silent.refl s
  refine ⟨rfl, le_rfl, fun h => ?_⟩
  unfold WithinLimit antiAmplificationLimit at h ⊢
  simp only [saturatingAdd, antiAmplificationMultiplier] at h ⊢
  omega

lemma Silent.trans {u : Sender B} (h : Silent s t) (h' : Silent t u) : Silent s u :=
  ⟨h'.sealed.trans h.sealed, Nat.le_trans h.next h'.next, fun hs => h'.limit (h.limit hs)⟩

lemma step_silent (op : Op B) (hop : op.isSend = false) : Silent s (s.step k op).2 := by
  cases op with
  | sendWithEcnAt | sendTrackedFrames | sendPmtuProbeAt | retransmitCandidateAt
  | retransmitPtoProbeBatchAt | sendManyProgressAt => cases hop
  | initiateKeyUpdate =>
    simp only [step, initiateKeyUpdate]
    split
    · exact Silent.refl s
    split
    · exact Silent.refl s
    · exact advanceSendKeyPhase_silent s _
  | acceptPeerKeyUpdate peerKeyPhase =>
    simp only [step, acceptPeerKeyUpdate]
    split
    · exact Silent.refl s
    split
    · exact Silent.refl s
    · exact advanceSendKeyPhase_silent s _
  | receiveDatagram bytes update =>
    have harrive := arrive_silent s bytes
    cases update with
    | none => exact harrive
    | sameUnvalidated => exact harrive.trans (recordPeerAddressBytesReceived_silent _ bytes)
    | natRebinding => exact harrive.trans (setPeerAddressValidated_silent _ true)
    | newPath =>
      have hstart := (startUnvalidatedPath_silent s).trans (arrive_silent _ bytes)
      exact hstart.trans (recordPeerAddressBytesReceived_silent _ bytes)
  | setPeerAddressValidated validated => exact setPeerAddressValidated_silent s validated
  | beginPeerMigration =>
    simp only [step, beginPeerMigration]
    split
    · exact Silent.refl s
    · exact startUnvalidatedPath_silent s
  | importSentEarlyData packetNumber books =>
    simp only [step, importSentEarlyData]
    split
    · exact Silent.refl s
    rename_i hnum
    cases books with
    | error e => exact Silent.refl s
    | ok books =>
      refine ⟨rfl, ?_, id⟩
      show s.nextPacketNumber ≤ packetNumber + 1
      omega
  | other others => exact ⟨rfl, le_rfl, id⟩

lemma Sends.withinLimit {sealed sent : List ShortPacket} {offer : List PacketSize}
    (h : Sends s t sealed sent offer) (hlim : s.WithinLimit) : t.WithinLimit := by
  have hlimits : t.antiAmplificationLimit = s.antiAmplificationLimit := by
    unfold antiAmplificationLimit
    rw [h.received]
  unfold WithinLimit at hlim ⊢
  rw [hlimits, h.counted]
  split
  · exact hlim
  rename_i hv
  rw [Bool.not_eq_true] at hv
  by_cases hnone : sealed = []
  · have : sent = [] := prefix_nil.mp (hnone ▸ h.initial)
    simpa [this, payloadTotal] using hlim
  have hfit := h.credit hv hnone
  have hle : payloadTotal (sent.map ShortPacket.size) ≤ payloadTotal offer :=
    payloadTotal_le_of_initial ((h.initial.map _).trans h.sizes)
  omega

lemma step_withinLimit (op : Op B) (hlim : s.WithinLimit) : (s.step k op).2.WithinLimit := by
  cases hop : op.isSend with
  | true =>
    obtain ⟨sealed, sent, hsends, -⟩ := step_sends k hlim op hop
    exact hsends.withinLimit hlim
  | false => exact (step_silent k op hop).limit hlim

/-! ### No number is protected twice -/

/-- Every number that was given to the AEAD lies below `nextPacketNumber`, and was given once. -/
structure NumbersUsed (s : Sender B) : Prop where
  below : ∀ p ∈ sealedPackets s.wire, p.packetNumber < s.nextPacketNumber
  distinct : ((sealedPackets s.wire).map ShortPacket.packetNumber).Nodup

lemma NumbersUsed.extend {sealed : List ShortPacket} (h : NumbersUsed s)
    (hsealed : sealedPackets t.wire = sealedPackets s.wire ++ sealed)
    (hnums : sealed.map ShortPacket.packetNumber = range' s.nextPacketNumber sealed.length)
    (hnext : s.nextPacketNumber + sealed.length ≤ t.nextPacketNumber) : NumbersUsed t where
  below := by
    intro p hp
    rw [hsealed, mem_append] at hp
    rcases hp with hp | hp
    · have := h.below p hp
      omega
    have hmem : p.packetNumber ∈ range' s.nextPacketNumber sealed.length := by
      rw [← hnums]
      exact mem_map_of_mem hp
    rw [mem_range'_1] at hmem
    omega
  distinct := by
    rw [hsealed, map_append, nodup_append', hnums]
    refine ⟨h.distinct, nodup_range', ?_⟩
    intro n hold hnew
    obtain ⟨p, hp, rfl⟩ := mem_map.mp hold
    have := h.below p hp
    rw [mem_range'_1] at hnew
    omega

lemma step_numbersUsed (op : Op B) (hlim : s.WithinLimit) (h : NumbersUsed s)
    (htakes : s.SocketTakes k op) : NumbersUsed (s.step k op).2 := by
  cases hop : op.isSend with
  | true =>
    obtain ⟨sealed, sent, hsends, hnext⟩ := step_sends k hlim op hop
    refine h.extend ?_ hsends.numbers (Nat.le_of_eq (hnext htakes).symm)
    rw [hsends.wire]
    simp
  | false =>
    have hsilent := step_silent (s := s) k op hop
    have hsame : sealedPackets (s.step k op).2.wire = sealedPackets s.wire ++ [] := by
      rw [hsilent.sealed, append_nil]
    exact h.extend hsame rfl hsilent.next

/-- No two sealing operations under the same keys share a packet number but not the packet, and
`nextPacketNumber` has been advanced past all of them. -/
def NoncesUnique (s : Sender B) : Prop :=
  (∀ p ∈ sealedPackets s.wire, ∀ q ∈ sealedPackets s.wire,
    p.keyGeneration = q.keyGeneration → p.packetNumber = q.packetNumber → p = q) ∧
  ∀ p ∈ sealedPackets s.wire, p.packetNumber < s.nextPacketNumber

lemma NumbersUsed.noncesUnique (h : NumbersUsed s) : NoncesUnique s := by
  refine ⟨?_, h.below⟩
  intro p hp q hq _ hnum
  exact inj_on_of_nodup_map h.distinct hp hq hnum

/--
**Nonces are unique in every run in which the socket takes what the single-packet paths and
the PTO probes have protected.**  The batches of `sendManyProgressAt` may be taken in part,
refused, or interrupted.
-/
theorem nonces_unique (config : SendConfig) (peerConnectionId : Bytes) (fixedBits : Nat → Bool)
    (books : B) (ops : List (Op B))
    (htakes : ∀ e ∈ trace (step k) (init config peerConnectionId fixedBits books) ops,
      e.pre.SocketTakes k e.input) :
    NoncesUnique (exec (step k) (init config peerConnectionId fixedBits books) ops) := by
  have hinit : (init config peerConnectionId fixedBits books).WithinLimit ∧
      NumbersUsed (init config peerConnectionId fixedBits books) :=
    ⟨Nat.zero_le _, ⟨forall_mem_nil _, nodup_nil⟩⟩
  have hrun := trace_induction (step k) (fun s op => s.SocketTakes k op)
    (fun _ s => s.WithinLimit ∧ NumbersUsed s) hinit
    (fun _ s op hinv htakes =>
      ⟨step_withinLimit k op hinv.1, step_numbersUsed k op hinv.1 hinv.2 htakes⟩) ops htakes
  exact hrun.2.noncesUnique

/-! ### A refused packet -/

/-- Components that never stand in the way, and an encoder that knows PING and PADDING. -/
def openBooks : Books Unit where
  frameBytes
    | .ping => .ok [1]
    | .padding len => .ok (replicate len 0)
    | _ => .error .invalidFrame
  largestAcknowledged _ := none
  ecnDisabled _ := false
  pmtudCurrentSize _ := none
  pacingDeadlineAt _ _ _ := none
  checkStream _ _ := .granted
  reserveFlow _ _ := (.granted, ())
  releaseFlow _ _ := ()
  noteBlockedSent _ _ := ()
  noteSentStreams _ _ := ()
  track _ _ _ := (.ok (some 0), ())
  trackRetransmission _ _ _ _ := (.ok (), ())
  untrack _ _ := ()
  notePacketSent _ _ _ _ := ()
  probeSize _ _ := none
  onProbeSent _ _ := ()
  ptoCandidateAt _ index := if index < 2 then some ⟨index, [1]⟩ else none
  probeDeadlineAt _ _ _ _ := none
  admitPacket _ _ _ _ := .admitted
  reserveBatch _ _ := (.ok (), ())
  releaseBatch _ _ := ()
  trackBatched _ _ _ := (.ok (), ())
  untrackBatched _ _ := ()

def openServer : Sender Unit := init { localEndpoint := .server } [] (fun _ => true) ()

/-- A batch that the socket refuses as a whole, two PTO probes, and a packet. -/
def refusedBatch : List (Op Unit) :=
  [.sendManyProgressAt [[.ping], [.ping, .ping]] {} .refused,
    .retransmitPtoProbeBatchAt 0 2 {} (.progress 2 false), .sendWithEcnAt [.ping] {}]

theorem nonces_unique_refused_batch :
    (∀ e ∈ trace (step openBooks) openServer refusedBatch, e.pre.SocketTakes openBooks e.input) ∧
      NoncesUnique (exec (step openBooks) openServer refusedBatch) := by
  have htakes : ∀ e ∈ trace (step openBooks) openServer refusedBatch,
      e.pre.SocketTakes openBooks e.input := by
    intro e he
    simp only [refusedBatch, trace_cons, trace_nil, mem_cons, not_mem_nil, or_false] at he
    rcases he with rfl | rfl | rfl
    · exact fun h => by cases h
    · refine .inr ⟨⟨2, false, rfl, ?_⟩, .inl ?_⟩
      · decide
      · decide
    · exact fun h => by cases h
  exact ⟨htakes, nonces_unique openBooks _ _ _ _ refusedBatch htakes⟩

/-- The socket refuses a PING; the next packet, two PINGs, is sealed under the same number. -/
theorem refused_packet_reuses_nonce :
    ¬ ∀ ops : List (Op Unit), NoncesUnique (exec (step openBooks) openServer ops) := by
  intro hall
  have hunique := (hall [.sendWithEcnAt [.ping] { delivery := .refused },
    .sendWithEcnAt [.ping, .ping] {}]).1
  have hfirst := hunique
    { keyGeneration := 0, destinationConnectionId := [], packetNumber := 0, packetNumberLen := 3,
      fixedBit := true, spinBit := false, keyPhase := false, payload := [1] } (by decide)
    { keyGeneration := 0, destinationConnectionId := [], packetNumber := 0, packetNumberLen := 2,
      fixedBit := true, spinBit := false, keyPhase := false, payload := [1, 1] } (by decide) rfl rfl
  cases hfirst

end Sender

end Netz.Quic
