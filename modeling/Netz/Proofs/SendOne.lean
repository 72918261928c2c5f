/-
When a packet leaves through the single-packet path, and what it leaves behind.

`Passes` lists what a list of frames has to get past: the checks of the frames, the size and
the pacer, flow control, congestion control and the tracker, the AEAD limit and the
anti-amplification credit.  `sendWithEcnAt` succeeds exactly when they all let it pass.
-/
import Netz.Proofs.SendBatch

namespace Netz.Quic.Sender

variable {B : Type} {s t u : Sender B}

/-! ### Keys and credit -/

/-- Preparing to protect a packet leaves everything else alone. -/
structure Steady (s t : Sender B) : Prop where
  config : t.config = s.config
  next : t.nextPacketNumber = s.nextPacketNumber
  handshakeStatus : t.handshakeStatus = s.handshakeStatus
  closeInfo : t.closeInfo = s.closeInfo
  idleTimedOut : t.idleTimedOut = s.idleTimedOut
  connectionId : t.peerConnectionId = s.peerConnectionId
  books : t.books = s.books

lemma Steady.refl (s : Sender B) : Steady s s := ⟨rfl, rfl, rfl, rfl, rfl, rfl, rfl⟩

lemma Steady.trans (h : Steady s t) (h' : Steady t u) : Steady s u where
  config := h'.config.trans h.config
  next := h'.next.trans h.next
  handshakeStatus := h'.handshakeStatus.trans h.handshakeStatus
  closeInfo := h'.closeInfo.trans h.closeInfo
  idleTimedOut := h'.idleTimedOut.trans h.idleTimedOut
  connectionId := h'.connectionId.trans h.connectionId
  books := h'.books.trans h.books

lemma prepareAeadForEncryption_steady {packetNumber : Nat}
    (h : s.prepareAeadForEncryption packetNumber = (.ok (), t)) :
    Steady s t ∧ t.antiAmplificationLimitRemaining = s.antiAmplificationLimitRemaining := by
  unfold prepareAeadForEncryption at h
  split at h
  · cases h
    exact ⟨Steady.refl s, rfl⟩
  split at h
  · cases h
  · cases h
    exact ⟨⟨rfl, rfl, rfl, rfl, rfl, rfl, rfl⟩, rfl⟩

lemma reserveAntiAmplification_steady {bytes : Nat} (h : s.reserveAntiAmplification bytes = .ok t) :
    Steady s t := by
  unfold reserveAntiAmplification at h
  split at h
  · cases h
    exact Steady.refl s
  split at h
  · cases h
  · cases h
    exact ⟨rfl, rfl, rfl, rfl, rfl, rfl, rfl⟩

/-- The address is validated, or there is credit for that many bytes. -/
def Credit (s : Sender B) (bytes : Nat) : Prop :=
  ∀ remaining, s.antiAmplificationLimitRemaining = some remaining → bytes ≤ remaining

lemma reserveAntiAmplification_iff (bytes : Nat) :
    (∃ t, s.reserveAntiAmplification bytes = .ok t) ↔ Credit s bytes := by
  unfold reserveAntiAmplification Credit
  cases hrem : s.antiAmplificationLimitRemaining with
  | none => simp
  | some remaining =>
    dsimp only
    by_cases hless : remaining < bytes
    · simp [hless]
    rw [if_neg hless]
    refine ⟨fun _ r hr => ?_, fun _ => ⟨_, rfl⟩⟩
    rw [Option.some.injEq] at hr
    omega

lemma reserveAntiAmplification_left {m n : Nat} (h : s.reserveAntiAmplification m = .ok t)
    (hcred : Credit s (m + n)) : Credit t n := by
  unfold reserveAntiAmplification at h
  cases hrem : s.antiAmplificationLimitRemaining with
  | none =>
    rw [hrem] at h
    cases h
    intro remaining hr
    rw [hrem] at hr
    cases hr
  | some remaining =>
    have hroom := hcred remaining hrem
    rw [hrem] at h
    dsimp only at h
    split at h
    · cases h
    cases h
    intro left hleft
    unfold antiAmplificationLimitRemaining antiAmplificationLimit at hrem hleft
    dsimp only at hrem hleft
    split at hrem
    · cases hrem
    rename_i hvalid
    rw [if_neg hvalid, Option.some.injEq] at hleft
    rw [Option.some.injEq] at hrem
    unfold saturatingAdd at hleft
    omega

/-! ### Below the checks -/

section

variable (k : Books B)

/-- A packet has left: what `s` becomes, where `b` tracks it. -/
def afterPacket (s : Sender B) (b : B) (p : PreparedPacket) (a : Attempt) : Sender B :=
  let packet := s.shortPacket p.packetNumber p.packetNumberLen p.payload
  { (s.sealShortPacket p.packetNumber p.packetNumberLen p.payload).handOver [packet] with
    books :=
      k.noteSentStreams (k.notePacketSent b packet a.nowNs (packetInFlight p.frames)) p.frames
    nextPacketNumber := s.nextPacketNumber + 1 }

/-- What a list of frames has to get past to leave as the packet `p`. -/
structure Passes (s : Sender B) (frames : List Frame) (a : Attempt) (p : PreparedPacket)
    (b₁ b₂ : B) (s₁ s₂ : Sender B) : Prop where
  closed : ¬ (s.closeInfo = true ∨ s.idleTimedOut = true)
  number : s.validateNextPacketNumber = .ok ()
  valid : s.validateOutboundFrames frames = .ok ()
  streams : s.checkStreams k frames = .granted
  prepared : s.prepareFramesForSend k frames a = .ok p
  flow : k.reserveFlow s.books p.frames = (.granted, b₁)
  tracked : ∃ group, k.track b₁ (sentRecord p a) p.payload = (.ok group, b₂)
  paced : ¬ (packetInFlight p.frames = true ∧ k.pacingDeadlineAt b₂ a.nowNs p.packetLen ≠ none)
  keys : ({ s with books := b₂ } : Sender B).prepareAeadForEncryption s.nextPacketNumber
    = (.ok (), s₁)
  credit : s₁.reserveAntiAmplification p.payload.length = .ok s₂

variable {frames : List Frame} {a : Attempt} {p : PreparedPacket}

lemma prepareFramesForSend_of (hframes : p.frames = frames)
    (hnum : p.packetNumber = s.nextPacketNumber) (hpay : encodeFrames k frames = .ok p.payload)
    (hnumberLen : p.packetNumberLen = packetNumberLenForPayload s.nextPacketNumber
        (k.largestAcknowledged s.books) p.payload.length)
    (hlen : shortPacketLen s.peerConnectionId s.nextPacketNumber p.packetNumberLen p.payload
        = .ok p.packetLen) (hsize : p.packetLen ≤ s.currentSendDatagramSize k)
    (hpaced : ¬ (packetInFlight frames = true ∧
        a.sentTimeNs.any (fun now => (k.pacingDeadlineAt s.books now p.packetLen).isSome) = true)) :
    s.prepareFramesForSend k frames a = .ok p := by
  unfold prepareFramesForSend
  rw [hpay]
  simp only [bind, Except.bind]
  rw [← hnumberLen, hlen]
  dsimp only
  rw [if_neg (Nat.not_lt_of_le hsize), if_neg hpaced]
  cases p
  dsimp only at hframes hnum ⊢
  rw [hframes, hnum]

/-- **What passes everything leaves.** -/
theorem Passes.sends {b₁ b₂ : B} {s₁ s₂ : Sender B} (h : Passes k s frames a p b₁ b₂ s₁ s₂)
    (hecn : a.ecn = .notEct) (hdelivery : a.delivery = .accepted)
    (hdone : s.handshakeStatus.needsHandshakeDone = false) :
    s.sendWithEcnAt k frames a = (.ok (), s₂.afterPacket k b₂ p a) := by
  obtain ⟨hframes, hnum, -, -, hlen, -, -⟩ := prepareFramesForSend_ok k h.prepared
  obtain ⟨group, htrack⟩ := h.tracked
  obtain ⟨hsteady₁, -⟩ := prepareAeadForEncryption_steady h.keys
  have hsteady₂ := reserveAntiAmplification_steady h.credit
  have hsteady := hsteady₁.trans hsteady₂
  have hplain : s.withHandshakeDone frames = frames := by simp [hdone, withHandshakeDone]
  have hpay : ({ s with books := b₂ } : Sender B).sendPayloadPacketWithPacketNumberLenAt k
      s.nextPacketNumber p.payload p.packetNumberLen a (packetInFlight p.frames)
      = s₂.protectAndSend k s.nextPacketNumber p.payload p.packetNumberLen a
        (packetInFlight p.frames) := by
    unfold sendPayloadPacketWithPacketNumberLenAt
    rw [show shortPacketLen ({ s with books := b₂ } : Sender B).peerConnectionId s.nextPacketNumber
      p.packetNumberLen p.payload = .ok p.packetLen from hlen]
    simp [h.paced, h.keys, h.credit]
  have hprotect : s₂.protectAndSend k s.nextPacketNumber p.payload p.packetNumberLen a
      (packetInFlight p.frames) = (.ok (), { (s₂.sealShortPacket s.nextPacketNumber
        p.packetNumberLen p.payload).handOver [s₂.shortPacket s.nextPacketNumber p.packetNumberLen
        p.payload] with
      books := k.notePacketSent s₂.books (s₂.shortPacket s.nextPacketNumber p.packetNumberLen
        p.payload) a.nowNs (packetInFlight p.frames) }) := by
    unfold protectAndSend
    rw [hdelivery]
    rfl
  unfold sendWithEcnAt sendWithEcnAtRaw
  rw [hplain, if_neg h.closed, if_neg (by rw [hecn]; simp), h.number, h.valid]
  rw [h.streams, h.prepared]
  dsimp only
  unfold sendWithFlowControl
  rw [h.flow]
  unfold sendPreparedFramesEcnAtUnchecked trackAndSend
  dsimp only
  rw [htrack]
  dsimp only
  rw [show (sentRecord p a).inFlight = packetInFlight p.frames from rfl, hpay, hprotect]
  have hbooks : s₂.books = b₂ := hsteady.books
  have hstatus : s₂.handshakeStatus.needsHandshakeDone = false := by
    rw [hsteady.handshakeStatus]
    exact hdone
  cases group with
  | none =>
    unfold handshakeDoneTracked afterPacket
    rw [hnum, hbooks]
    rfl
  | some groupId =>
    unfold handshakeDoneTracked
    dsimp only
    rw [if_neg]
    · unfold afterPacket
      rw [hnum, hbooks]
      rfl
    show ¬ ((s₂.handshakeStatus.needsHandshakeDone && containsHandshakeDone p.frames) = true)
    rw [hstatus]
    simp

lemma sendBlocked_error (s : Sender B) (control : Frame) (error : Error) (a : Attempt) :
    ∃ e, (s.sendBlocked k control error a).1 = .error e := by
  unfold sendBlocked
  rcases s.sendTrackedFrames k [control] { a with sentTimeNs := some a.clockNs, ecn := .notEct } with
    ⟨e | u, t⟩
  · exact ⟨e, rfl⟩
  · exact ⟨error, rfl⟩

lemma trackAndSend_ok {track : B → Except Error (Option Nat) × B} {record : SentPacket}
    {payload : Bytes} {packetNumberLen : Nat} {pacePacket : Bool} {group : Option Nat}
    (h : s.trackAndSend k track record payload packetNumberLen a pacePacket = (.ok group, t)) :
    a.delivery = .accepted ∧ ∃ packetLen b s₁ s₂, track s.books = (.ok group, b) ∧
      shortPacketLen s.peerConnectionId s.nextPacketNumber packetNumberLen payload = .ok packetLen ∧
      ¬ (pacePacket = true ∧ k.pacingDeadlineAt b a.nowNs packetLen ≠ none) ∧
      ({ s with books := b } : Sender B).prepareAeadForEncryption s.nextPacketNumber = (.ok (), s₁) ∧
      s₁.reserveAntiAmplification payload.length = .ok s₂ := by
  unfold trackAndSend at h
  rcases htrack : track s.books with ⟨e | groupId, b⟩
  · rw [htrack] at h
    cases h
  rw [htrack] at h
  dsimp only at h
  rcases hsend : ({ s with books := b } : Sender B).sendPayloadPacketWithPacketNumberLenAt k
    s.nextPacketNumber payload packetNumberLen a pacePacket with ⟨e | u, v⟩
  · simp [hsend] at h
  rw [hsend] at h
  cases h
  unfold sendPayloadPacketWithPacketNumberLenAt at hsend
  cases hlen : shortPacketLen ({ s with books := b } : Sender B).peerConnectionId
    s.nextPacketNumber packetNumberLen payload with
  | error e =>
    rw [hlen] at hsend
    cases hsend
  | ok packetLen =>
    rw [hlen] at hsend
    dsimp only at hsend
    split at hsend
    · cases hsend
    rename_i hpaced
    rcases hprep : ({ s with books := b } : Sender B).prepareAeadForEncryption
      s.nextPacketNumber with ⟨e | u, s₁⟩
    · simp [hprep] at hsend
    rw [hprep] at hsend
    dsimp only at hsend
    cases hres : s₁.reserveAntiAmplification payload.length with
    | error e => simp [hres] at hsend
    | ok s₂ =>
      rw [hres] at hsend
      refine ⟨?_, packetLen, b, s₁, s₂, rfl, rfl, hpaced, hprep, hres⟩
      unfold protectAndSend at hsend
      cases hdelivery : a.delivery with
      | outOfMemory | refused => simp [hdelivery] at hsend
      | accepted => rfl

lemma sendWithEcnAtRaw_passes (h : s.sendWithEcnAtRaw k frames a = (.ok (), t)) :
    a.delivery = .accepted ∧ ∃ p b₁ b₂ s₁ s₂, Passes k s frames a p b₁ b₂ s₁ s₂ := by
  unfold sendWithEcnAtRaw at h
  obtain ⟨hclosed, h⟩ := Lib.of_guard h nofun
  split at h
  · cases h
  cases hnum : s.validateNextPacketNumber with
  | error e =>
    rw [hnum] at h
    cases h
  | ok _ =>
    cases hvalid : s.validateOutboundFrames frames with
    | error e => simp [hnum, hvalid] at h
    | ok _ =>
      rw [hnum, hvalid] at h
      cases hstreams : s.checkStreams k frames with
      | refused e => simp [hstreams] at h
      | blocked control e =>
        rw [hstreams] at h
        obtain ⟨e', herr⟩ := sendBlocked_error k s control e a
        cases (congrArg Prod.fst h).symm.trans herr
      | granted =>
        rw [hstreams] at h
        cases hprep : s.prepareFramesForSend k frames a with
        | error e => simp [hprep] at h
        | ok p =>
          rw [hprep] at h
          dsimp only at h
          obtain ⟨hframes, -, -, -, hlen, -, -⟩ := prepareFramesForSend_ok k hprep
          unfold sendWithFlowControl at h
          rcases hflow : k.reserveFlow s.books p.frames with ⟨verdict, b₁⟩
          rw [hflow] at h
          cases verdict with
          | refused e => cases h
          | blocked control e =>
            obtain ⟨e', herr⟩ := sendBlocked_error k { s with books := b₁ } control e a
            cases (congrArg Prod.fst h).symm.trans herr
          | granted =>
            unfold sendPreparedFramesEcnAtUnchecked at h
            rcases hsend : ({ s with books := b₁ } : Sender B).trackAndSend k
              (k.track · (sentRecord p a) p.payload) (sentRecord p a) p.payload
              p.packetNumberLen a (sentRecord p a).inFlight with ⟨e | group, u⟩
            · simp [hsend] at h
            obtain ⟨hdelivery, packetLen, b₂, s₁, s₂, htrack, hlen', hpaced, hkeys, hcred⟩ :=
              trackAndSend_ok k hsend
            have hsame : packetLen = p.packetLen := by
              have heq := hlen'.symm.trans hlen
              injection heq
            rw [hsame] at hpaced
            exact ⟨hdelivery, p, b₁, b₂, s₁, s₂,
              { closed := hclosed
                number := hnum
                valid := hvalid
                streams := hstreams
                prepared := hprep
                flow := hflow
                tracked := ⟨group, htrack⟩
                paced := hpaced
                keys := hkeys
                credit := hcred }⟩

/-- **What left has passed everything.** -/
theorem sendWithEcnAt_passes (hecn : a.ecn = .notEct)
    (hdone : s.handshakeStatus.needsHandshakeDone = false)
    (h : s.sendWithEcnAt k frames a = (.ok (), t)) :
    a.delivery = .accepted ∧ ∃ p b₁ b₂ s₁ s₂, Passes k s frames a p b₁ b₂ s₁ s₂ ∧
      t = s₂.afterPacket k b₂ p a := by
  have hplain : s.withHandshakeDone frames = frames := by simp [hdone, withHandshakeDone]
  have hraw : s.sendWithEcnAtRaw k frames a = (.ok (), t) := by
    unfold sendWithEcnAt at h
    rw [hplain] at h
    exact h
  obtain ⟨hdelivery, p, b₁, b₂, s₁, s₂, hpasses⟩ := sendWithEcnAtRaw_passes k hraw
  refine ⟨hdelivery, p, b₁, b₂, s₁, s₂, hpasses, ?_⟩
  have hagain := hpasses.sends k hecn hdelivery hdone
  rw [h] at hagain
  exact congrArg Prod.snd hagain

end

end Netz.Quic.Sender
