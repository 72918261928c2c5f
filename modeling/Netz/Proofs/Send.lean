/-
What one call of a send path does to the outside.

`Sends s t sealed sent offer` says it for a call that leads from `s` to `t`: it protects the
packets `sealed`, numbered from `nextPacketNumber` on, and the socket takes an initial part
`sent` of them; their sizes are those that the call had planned (`offer`); and the
anti-amplification counter grows by exactly the payload bytes of `sent`, after the check that
the payload of the whole offer fits.

One lemma for each call establishes it.  How far `nextPacketNumber` moves is not part of it:
that is where the paths differ.
-/
import Netz.Quic.SendBatch

namespace Netz.Quic

open List

/-- A planned packet, as far as anti-amplification is concerned. -/
structure PacketSize where
  payloadLen : Nat
  packetLen : Nat

def ShortPacket.size (p : ShortPacket) : PacketSize := ⟨p.payload.length, p.length⟩

def PreparedPacket.size (p : PreparedPacket) : PacketSize := ⟨p.payload.length, p.packetLen⟩

def PreparedProbe.size (p : PreparedProbe) : PacketSize :=
  ⟨p.candidate.payload.length, p.packetLen⟩

def payloadTotal (sizes : List PacketSize) : Nat := (sizes.map PacketSize.payloadLen).sum

def packetTotal (sizes : List PacketSize) : Nat := (sizes.map PacketSize.packetLen).sum

variable {xs ys : List PacketSize} {destinationConnectionId payload : Bytes}
  {packetNumber packetNumberLen packetLen : Nat}

lemma payloadTotal_le_of_initial (h : xs <+: ys) : payloadTotal xs ≤ payloadTotal ys := by
  obtain ⟨zs, rfl⟩ := h
  simp [payloadTotal]

lemma packetTotal_le_of_initial (h : xs <+: ys) : packetTotal xs ≤ packetTotal ys := by
  obtain ⟨zs, rfl⟩ := h
  simp [packetTotal]

lemma shortPacketLen_ok
    (h : shortPacketLen destinationConnectionId packetNumber packetNumberLen payload =
      .ok packetLen) :
    packetLen = 1 + packetNumberLen + destinationConnectionId.length + aeadTagLen +
      payload.length := by
  unfold shortPacketLen at h
  split at h
  · cases h
  split at h
  · cases h
  split at h
  · cases h
  · injection h with h
    exact h.symm

lemma shortPacketLen_number
    (h : shortPacketLen destinationConnectionId packetNumber packetNumberLen payload =
      .ok packetLen) : packetNumber ≤ maxPacketNumber := by
  unfold shortPacketLen at h
  split at h
  · cases h
  split at h
  · cases h
  · omega

namespace Sender

variable {B : Type} {s t u : Sender B}

/-- The counter has never passed the limit. -/
def WithinLimit (s : Sender B) : Prop := s.peerAddressBytesSent ≤ s.antiAmplificationLimit

/-- Nothing that the outside can see, and no counter of it, has changed. -/
structure Quiet (s t : Sender B) : Prop where
  wire : t.wire = s.wire
  next : t.nextPacketNumber = s.nextPacketNumber
  connectionId : t.peerConnectionId = s.peerConnectionId
  validated : t.peerAddressValidated = s.peerAddressValidated
  received : t.peerAddressBytesReceived = s.peerAddressBytesReceived
  sent : t.peerAddressBytesSent = s.peerAddressBytesSent

lemma Quiet.refl (s : Sender B) : Quiet s s := ⟨rfl, rfl, rfl, rfl, rfl, rfl⟩

lemma Quiet.trans (h : Quiet s t) (h' : Quiet t u) : Quiet s u where
  wire := h'.wire.trans h.wire
  next := h'.next.trans h.next
  connectionId := h'.connectionId.trans h.connectionId
  validated := h'.validated.trans h.validated
  received := h'.received.trans h.received
  sent := h'.sent.trans h.sent

lemma Quiet.limit (h : Quiet s t) : t.antiAmplificationLimit = s.antiAmplificationLimit := by
  unfold antiAmplificationLimit
  rw [h.received]

lemma Quiet.withinLimit (h : Quiet s t) (hs : s.WithinLimit) : t.WithinLimit := by
  unfold WithinLimit
  rw [h.sent, h.limit]
  exact hs

lemma Quiet.books (s : Sender B) (books : B) : Quiet s { s with books := books } :=
  ⟨rfl, rfl, rfl, rfl, rfl, rfl⟩

structure Sends (s t : Sender B) (sealed sent : List ShortPacket) (offer : List PacketSize) :
    Prop where
  wire : t.wire = s.wire ++ sealed.map .sealed ++ sent.map .sent
  numbers : sealed.map ShortPacket.packetNumber = range' s.nextPacketNumber sealed.length
  initial : sent <+: sealed
  sizes : sealed.map ShortPacket.size <+: offer
  validated : t.peerAddressValidated = s.peerAddressValidated
  received : t.peerAddressBytesReceived = s.peerAddressBytesReceived
  counted : t.peerAddressBytesSent =
    if s.peerAddressValidated then s.peerAddressBytesSent
    else s.peerAddressBytesSent + payloadTotal (sent.map ShortPacket.size)
  credit : s.peerAddressValidated = false → sealed ≠ [] →
    s.peerAddressBytesSent + payloadTotal offer ≤ s.antiAmplificationLimit

lemma Quiet.sends (h : Quiet s t) (offer : List PacketSize) : Sends s t [] [] offer where
  wire := by simp [h.wire]
  numbers := rfl
  initial := prefix_refl []
  sizes := nil_prefix
  validated := h.validated
  received := h.received
  counted := by
    rw [h.sent]
    split <;> rfl
  credit := fun _ hne => absurd rfl hne

variable {sealed sent : List ShortPacket} {offer : List PacketSize} {bytes : Nat} {a : Attempt}

lemma Sends.after (h : Quiet s t) (hs : Sends t u sealed sent offer) :
    Sends s u sealed sent offer where
  wire := by rw [hs.wire, h.wire]
  numbers := by rw [hs.numbers, h.next]
  initial := hs.initial
  sizes := hs.sizes
  validated := hs.validated.trans h.validated
  received := hs.received.trans h.received
  counted := by rw [hs.counted, h.validated, h.sent]
  credit := by
    intro hv hne
    rw [← h.sent, ← h.limit]
    exact hs.credit (h.validated.trans hv) hne

lemma Sends.followed (hs : Sends s t sealed sent offer) (hwire : u.wire = t.wire)
    (hvalidated : u.peerAddressValidated = t.peerAddressValidated)
    (hrecv : u.peerAddressBytesReceived = t.peerAddressBytesReceived)
    (hsent : u.peerAddressBytesSent = t.peerAddressBytesSent) : Sends s u sealed sent offer where
  wire := hwire.trans hs.wire
  numbers := hs.numbers
  initial := hs.initial
  sizes := hs.sizes
  validated := hvalidated.trans hs.validated
  received := hrecv.trans hs.received
  counted := hsent.trans hs.counted
  credit := hs.credit

lemma Sends.quiet (hs : Sends s t sealed sent offer) (h : Quiet t u) :
    Sends s u sealed sent offer :=
  hs.followed h.wire h.validated h.received h.sent

/-! ### Credit and keys -/

lemma reserveAntiAmplification_ok (hlim : s.WithinLimit)
    (h : s.reserveAntiAmplification bytes = .ok t) :
    (s.peerAddressValidated = true ∧ t = s) ∨
      (s.peerAddressValidated = false ∧
        s.peerAddressBytesSent + bytes ≤ s.antiAmplificationLimit ∧
        t = { s with peerAddressBytesSent := s.peerAddressBytesSent + bytes }) := by
  unfold reserveAntiAmplification antiAmplificationLimitRemaining at h
  cases hv : s.peerAddressValidated with
  | true =>
    simp only [hv] at h
    injection h with h
    exact .inl ⟨rfl, h.symm⟩
  | false =>
    simp only [hv] at h
    obtain ⟨hb, h⟩ := Lib.of_guard h nofun
    injection h with h
    have hfit : s.peerAddressBytesSent + bytes ≤ s.antiAmplificationLimit := by
      unfold WithinLimit at hlim
      omega
    have hsat : saturatingAdd s.peerAddressBytesSent bytes = s.peerAddressBytesSent + bytes := by
      unfold saturatingAdd
      have : s.antiAmplificationLimit ≤ maxU64 := Nat.min_le_right _ _
      omega
    rw [hsat] at h
    exact .inr ⟨rfl, hfit, h.symm⟩

lemma prepareAeadForEncryption_quiet (s : Sender B) (packetNumber : Nat) :
    Quiet s (s.prepareAeadForEncryption packetNumber).2 := by
  unfold prepareAeadForEncryption
  split
  · exact Quiet.refl s
  split
  · exact ⟨rfl, rfl, rfl, rfl, rfl, rfl⟩
  · exact ⟨rfl, rfl, rfl, rfl, rfl, rfl⟩

lemma releaseAntiAmplification_wire (s : Sender B) (bytes : Nat) :
    (s.releaseAntiAmplification bytes).wire = s.wire ∧
      (s.releaseAntiAmplification bytes).nextPacketNumber = s.nextPacketNumber ∧
      (s.releaseAntiAmplification bytes).peerAddressValidated = s.peerAddressValidated ∧
      (s.releaseAntiAmplification bytes).peerAddressBytesReceived = s.peerAddressBytesReceived ∧
      (s.releaseAntiAmplification bytes).peerAddressBytesSent =
        if s.peerAddressValidated then s.peerAddressBytesSent
        else s.peerAddressBytesSent - bytes := by
  unfold releaseAntiAmplification
  split
  · exact ⟨rfl, rfl, rfl, rfl, rfl⟩
  · exact ⟨rfl, rfl, rfl, rfl, rfl⟩

/-! ### Protected and then sent, or not -/

/-- A run of sealing operations, with nothing else going on. -/
structure Seals (s t : Sender B) (sealed : List ShortPacket) : Prop where
  wire : t.wire = s.wire ++ sealed.map .sealed
  next : t.nextPacketNumber = s.nextPacketNumber
  connectionId : t.peerConnectionId = s.peerConnectionId
  validated : t.peerAddressValidated = s.peerAddressValidated
  received : t.peerAddressBytesReceived = s.peerAddressBytesReceived
  sent : t.peerAddressBytesSent = s.peerAddressBytesSent

lemma Quiet.seals (h : Quiet s t) : Seals s t [] :=
  ⟨by simp [h.wire], h.next, h.connectionId, h.validated, h.received, h.sent⟩

lemma sealShortPacket_seals (s : Sender B) (packetNumber packetNumberLen : Nat)
    (payload : Bytes) :
    Seals s (s.sealShortPacket packetNumber packetNumberLen payload)
      [s.shortPacket packetNumber packetNumberLen payload] :=
  ⟨rfl, rfl, rfl, rfl, rfl, rfl⟩

lemma Seals.trans {xs ys : List ShortPacket} (h : Seals s t xs) (h' : Seals t u ys) :
    Seals s u (xs ++ ys) where
  wire := by rw [h'.wire, h.wire]; simp
  next := h'.next.trans h.next
  connectionId := h'.connectionId.trans h.connectionId
  validated := h'.validated.trans h.validated
  received := h'.received.trans h.received
  sent := h'.sent.trans h.sent

/-- Credit for the whole offer is reserved, and packets of the offer are protected. -/
structure Protected (s t : Sender B) (sealed : List ShortPacket) (offer : List PacketSize) :
    Prop where
  reserved : ∃ s₁, s.reserveAntiAmplification (payloadTotal offer) = .ok s₁ ∧ Seals s₁ t sealed
  numbers : sealed.map ShortPacket.packetNumber = range' s.nextPacketNumber sealed.length
  sizes : sealed.map ShortPacket.size <+: offer

lemma reserveAntiAmplification_keeps (hlim : s.WithinLimit)
    (h : s.reserveAntiAmplification bytes = .ok t) :
    t.peerConnectionId = s.peerConnectionId ∧ t.nextPacketNumber = s.nextPacketNumber := by
  rcases reserveAntiAmplification_ok hlim h with ⟨-, rfl⟩ | ⟨-, -, rfl⟩
  · exact ⟨rfl, rfl⟩
  · exact ⟨rfl, rfl⟩

lemma Protected.next (hlim : s.WithinLimit) (h : Protected s t sealed offer) :
    t.nextPacketNumber = s.nextPacketNumber := by
  obtain ⟨s₁, hres, hseals⟩ := h.reserved
  exact hseals.next.trans (reserveAntiAmplification_keeps hlim hres).2

/--
**The common shape of a send.**  An initial part of what is protected is handed over, and the
credit of the rest of the offer is given back.
-/
theorem Protected.handOver (hlim : s.WithinLimit) (h : Protected s t sealed offer) (n : Nat) :
    Sends s ((t.handOver (sealed.take n)).releaseAntiAmplification
        (payloadTotal offer - payloadTotal ((sealed.take n).map ShortPacket.size)))
      sealed (sealed.take n) offer := by
  obtain ⟨s₁, hres, hseals⟩ := h.reserved
  have hle : payloadTotal ((sealed.take n).map ShortPacket.size) ≤ payloadTotal offer := by
    apply payloadTotal_le_of_initial
    apply IsPrefix.trans _ h.sizes
    exact (List.take_prefix n sealed).map _
  obtain ⟨hwire, -, hvalidated, hrecv, hsent⟩ :=
    releaseAntiAmplification_wire (t.handOver (sealed.take n))
      (payloadTotal offer - payloadTotal ((sealed.take n).map ShortPacket.size))
  have hsv : (t.handOver (sealed.take n)).peerAddressValidated = t.peerAddressValidated := rfl
  have hss : (t.handOver (sealed.take n)).peerAddressBytesSent = t.peerAddressBytesSent := rfl
  have hsw : (t.handOver (sealed.take n)).wire = t.wire ++ (sealed.take n).map .sent := rfl
  rw [hsv, hss, hseals.validated, hseals.sent] at hsent
  rw [hsw, hseals.wire] at hwire
  have hinit := take_prefix n sealed
  rcases reserveAntiAmplification_ok hlim hres with ⟨hv, rfl⟩ | ⟨hv, hfit, rfl⟩
  · refine ⟨hwire, h.numbers, hinit, h.sizes, hvalidated.trans hseals.validated,
      hrecv.trans hseals.received, ?_, ?_⟩
    · rw [hsent, hv]
      rfl
    · simp [hv]
  refine ⟨hwire, h.numbers, hinit, h.sizes, hvalidated.trans hseals.validated,
    hrecv.trans hseals.received, ?_, fun _ _ => hfit⟩
  rw [hsent, hv]
  simp only [Bool.false_eq_true, if_false]
  omega

lemma Protected.abandon (hlim : s.WithinLimit) (h : Protected s t sealed offer) :
    Sends s (t.releaseAntiAmplification (payloadTotal offer)) sealed [] offer := by
  have hsends := h.handOver hlim 0
  simpa [Sender.handOver, payloadTotal] using hsends

/-! ### The single-packet paths -/

/-- The size of the packet that would carry `payload` next. -/
def sizeOf (s : Sender B) (packetNumberLen : Nat) (payload : Bytes) : PacketSize where
  payloadLen := payload.length
  packetLen := 1 + packetNumberLen + s.peerConnectionId.length + aeadTagLen + payload.length

lemma Quiet.sizeOf (h : Quiet s t) (packetNumberLen : Nat) (payload : Bytes) :
    t.sizeOf packetNumberLen payload = s.sizeOf packetNumberLen payload := by
  unfold Sender.sizeOf
  rw [h.connectionId]

/--
A call of a single-packet path: at most one packet is protected, the packet number is used up
when the socket takes it, and it is protected in vain only when the socket refuses it.
-/
def SendsOne (s t : Sender B) (offer : List PacketSize) (a : Attempt) : Prop :=
  ∃ sealed sent, Sends s t sealed sent offer ∧
    t.nextPacketNumber = s.nextPacketNumber + sent.length ∧
    (sealed = sent ∨ a.delivery = .refused)

lemma Quiet.sendsOne (h : Quiet s t) (offer : List PacketSize) (a : Attempt) :
    SendsOne s t offer a :=
  ⟨[], [], h.sends offer, h.next, .inl rfl⟩

lemma SendsOne.after (h : Quiet s t) (hs : SendsOne t u offer a) : SendsOne s u offer a := by
  obtain ⟨sealed, sent, hsends, hnext, hvain⟩ := hs
  exact ⟨sealed, sent, Sends.after h hsends, by rw [hnext, h.next], hvain⟩

lemma SendsOne.quiet (hs : SendsOne s t offer a) (h : Quiet t u) : SendsOne s u offer a := by
  obtain ⟨sealed, sent, hsends, hnext, hvain⟩ := hs
  exact ⟨sealed, sent, hsends.quiet h, h.next.trans hnext, hvain⟩

section Single

variable (k : Books B)

/-- The same before the packet number is used up, with the answer of the call. -/
def SendsPayload (s t : Sender B) (size : PacketSize) (a : Attempt) (r : Except Error Unit) :
    Prop :=
  ∃ sealed sent, Sends s t sealed sent [size] ∧ t.nextPacketNumber = s.nextPacketNumber ∧
    ((r = .ok () ∧ sealed = sent ∧ sent.length = 1) ∨
      ((∃ e, r = .error e) ∧ sent = [] ∧ (sealed = [] ∨ a.delivery = .refused)))

lemma Quiet.sendsPayload (h : Quiet s t) (size : PacketSize) (a : Attempt) (e : Error) :
    SendsPayload s t size a (.error e) :=
  ⟨[], [], h.sends [size], h.next, .inr ⟨⟨e, rfl⟩, rfl, .inl rfl⟩⟩

lemma SendsPayload.after {size : PacketSize} {a : Attempt} {r : Except Error Unit}
    (h : Quiet s t) (hs : SendsPayload t u size a r) : SendsPayload s u size a r := by
  obtain ⟨sealed, sent, hsends, hnext, hres⟩ := hs
  exact ⟨sealed, sent, Sends.after h hsends, hnext.trans h.next, hres⟩

lemma protectAndSend_sends (hlim : s.WithinLimit) (payload : Bytes) (packetNumberLen : Nat)
    (a : Attempt) (pacePacket : Bool) (hres : s.reserveAntiAmplification payload.length = .ok t) :
    SendsPayload s (t.protectAndSend k s.nextPacketNumber payload packetNumberLen a pacePacket).2
      (s.sizeOf packetNumberLen payload) a
      (t.protectAndSend k s.nextPacketNumber payload packetNumberLen a pacePacket).1 := by
  obtain ⟨hconnection, hnext⟩ := reserveAntiAmplification_keeps hlim hres
  have hsize : (t.shortPacket s.nextPacketNumber packetNumberLen payload).size =
      s.sizeOf packetNumberLen payload := by
    simp [ShortPacket.size, Sender.sizeOf, ShortPacket.length, ShortPacket.overhead, shortPacket,
      hconnection]
  have hprot : Protected s (t.sealShortPacket s.nextPacketNumber packetNumberLen payload)
      [t.shortPacket s.nextPacketNumber packetNumberLen payload]
      [s.sizeOf packetNumberLen payload] :=
    ⟨⟨t, hres, sealShortPacket_seals t s.nextPacketNumber packetNumberLen payload⟩, rfl,
      by simp [hsize]⟩
  unfold protectAndSend
  cases hd : a.delivery with
  | outOfMemory =>
    have hq : Quiet t { t with fixedBitIndex := t.fixedBitIndex + 1 } :=
      ⟨rfl, rfl, rfl, rfl, rfl, rfl⟩
    have hnothing : Protected s { t with fixedBitIndex := t.fixedBitIndex + 1 } []
        [s.sizeOf packetNumberLen payload] := ⟨⟨t, hres, hq.seals⟩, rfl, nil_prefix⟩
    have hsends := hnothing.abandon hlim
    refine ⟨[], [], hsends, ?_, .inr ⟨⟨_, rfl⟩, rfl, .inl rfl⟩⟩
    rw [(releaseAntiAmplification_wire _ _).2.1]
    exact hnext
  | refused =>
    have hsends := hprot.abandon hlim
    refine ⟨_, [], hsends, ?_, .inr ⟨⟨_, rfl⟩, rfl, .inr hd⟩⟩
    rw [(releaseAntiAmplification_wire _ _).2.1]
    exact hnext
  | accepted =>
    have hsends := hprot.handOver hlim 1
    have hnone : payloadTotal [s.sizeOf packetNumberLen payload] - payloadTotal
        (([t.shortPacket s.nextPacketNumber packetNumberLen payload].take 1).map
          ShortPacket.size) = 0 := by simp [hsize]
    rw [hnone] at hsends
    obtain ⟨hwire, -, hvalidated, hrecv, hsent⟩ := releaseAntiAmplification_wire
      ((t.sealShortPacket s.nextPacketNumber packetNumberLen payload).handOver
        ([t.shortPacket s.nextPacketNumber packetNumberLen payload].take 1)) 0
    refine ⟨_, _, hsends.followed hwire.symm hvalidated.symm hrecv.symm ?_, hnext,
      .inl ⟨rfl, rfl, rfl⟩⟩
    rw [hsent]
    simp [sealShortPacket]

lemma sendPayloadPacket_sends (hlim : s.WithinLimit) (payload : Bytes) (packetNumberLen : Nat)
    (a : Attempt) (pacePacket : Bool) :
    SendsPayload s
      (s.sendPayloadPacketWithPacketNumberLenAt k s.nextPacketNumber payload packetNumberLen a
        pacePacket).2 (s.sizeOf packetNumberLen payload) a
      (s.sendPayloadPacketWithPacketNumberLenAt k s.nextPacketNumber payload packetNumberLen a
        pacePacket).1 := by
  unfold sendPayloadPacketWithPacketNumberLenAt
  split
  · exact (Quiet.refl s).sendsPayload _ a _
  split
  · exact (Quiet.refl s).sendsPayload _ a _
  have hkeys := prepareAeadForEncryption_quiet s s.nextPacketNumber
  rcases hprep : s.prepareAeadForEncryption s.nextPacketNumber with ⟨result, s₁⟩
  rw [hprep] at hkeys
  cases result with
  | error e => exact hkeys.sendsPayload _ a e
  | ok _ =>
    simp only at hkeys ⊢
    rw [← hkeys.next, ← hkeys.sizeOf]
    apply SendsPayload.after hkeys
    cases hres : s₁.reserveAntiAmplification payload.length with
    | error e => exact (Quiet.refl s₁).sendsPayload _ a e
    | ok s₂ =>
      exact protectAndSend_sends k (hkeys.withinLimit hlim) payload packetNumberLen a
        pacePacket hres

lemma trackAndSend_sends (hlim : s.WithinLimit) (track : B → Except Error (Option Nat) × B)
    (record : SentPacket) (payload : Bytes) (packetNumberLen : Nat) (a : Attempt)
    (pacePacket : Bool) :
    SendsOne s (s.trackAndSend k track record payload packetNumberLen a pacePacket).2
      [s.sizeOf packetNumberLen payload] a := by
  unfold trackAndSend
  rcases htrack : track s.books with ⟨result, books⟩
  have hbooks := Quiet.books s books
  cases result with
  | error e => exact hbooks.sendsOne _ a
  | ok groupId =>
    simp only
    have hpay := sendPayloadPacket_sends k (hbooks.withinLimit hlim) payload
      packetNumberLen a pacePacket
    rcases hsend : ({ s with books := books } : Sender B).sendPayloadPacketWithPacketNumberLenAt k
      s.nextPacketNumber payload packetNumberLen a pacePacket with ⟨r, t⟩
    rw [hsend] at hpay
    obtain ⟨sealed, sent, hsends, hnext, hres⟩ := hpay
    rcases hres with ⟨rfl, hall, hone⟩ | ⟨⟨e, rfl⟩, hnone, hvain⟩
    · refine ⟨sealed, sent, Sends.after hbooks (hsends.followed rfl rfl rfl rfl), ?_, .inl hall⟩
      show t.nextPacketNumber + 1 = _
      rw [hnext, hone]
    refine ⟨sealed, sent, Sends.after hbooks (hsends.quiet (Quiet.books t _)), ?_, ?_⟩
    · show t.nextPacketNumber = _
      rw [hnext, hnone]
      rfl
    · simp [hnone, hvain]

end Single

end Sender

end Netz.Quic

/-! ### What the single-packet paths offer to the socket, and that they do no more than send it

An offer is computed from the call and the state before it: the packet that would be sent if
credit, keys, memory and the socket allow it.  Every single-packet path is a `SendsOne` with
its offer. -/

namespace Netz.Quic

namespace Sender

variable {B : Type} {s t u : Sender B}

section Single

variable (k : Books B)

/-! ### Offers of the single-packet paths -/

def framesOffer (s : Sender B) (frames : List Frame) (a : Attempt) : List PacketSize :=
  match s.prepareFramesForSend k frames a with
  | .error _ => []
  | .ok prepared => [prepared.size]

/-- A BLOCKED frame, which goes out at the time of the clock. -/
def controlOffer (s : Sender B) (control : Frame) (a : Attempt) : List PacketSize :=
  s.framesOffer k (s.withHandshakeDone [control])
    { a with sentTimeNs := some a.clockNs, ecn := .notEct }

def flowOffer (s : Sender B) (prepared : PreparedPacket) (a : Attempt) : List PacketSize :=
  match k.reserveFlow s.books prepared.frames with
  | (.refused _, _) => []
  | (.blocked control _, books) => { s with books := books }.controlOffer k control a
  | (.granted, _) => [prepared.size]

def sendOffer (s : Sender B) (frames : List Frame) (a : Attempt) : List PacketSize :=
  match s.checkStreams k (s.withHandshakeDone frames) with
  | .refused _ => []
  | .blocked control _ => s.controlOffer k control a
  | .granted =>
    match s.prepareFramesForSend k (s.withHandshakeDone frames) a with
    | .error _ => []
    | .ok prepared => s.flowOffer k prepared a

def pmtuOffer (s : Sender B) (peerMaxUdpPayload : Nat) : List PacketSize :=
  match k.probeSize s.books peerMaxUdpPayload with
  | none => []
  | some probeSize =>
    [s.sizeOf 4 (pmtuProbePayload (probeSize - (1 + s.peerConnectionId.length + 4 + aeadTagLen)))]

def candidateOffer (s : Sender B) (candidate : Candidate) : List PacketSize :=
  [s.sizeOf (packetNumberLenForPayload s.nextPacketNumber (k.largestAcknowledged s.books)
    candidate.payload.length) candidate.payload]

/-! ### The single-packet paths -/

lemma prepareFramesForSend_ok {frames : List Frame} {a : Attempt} {p : PreparedPacket}
    (h : s.prepareFramesForSend k frames a = .ok p) :
    p.frames = frames ∧ p.packetNumber = s.nextPacketNumber ∧
      encodeFrames k frames = .ok p.payload ∧
      p.packetNumberLen = packetNumberLenForPayload s.nextPacketNumber
        (k.largestAcknowledged s.books) p.payload.length ∧
      shortPacketLen s.peerConnectionId s.nextPacketNumber p.packetNumberLen p.payload
        = .ok p.packetLen ∧
      p.packetLen ≤ s.currentSendDatagramSize k ∧
      ¬ (packetInFlight frames = true ∧
        a.sentTimeNs.any (fun now => (k.pacingDeadlineAt s.books now p.packetLen).isSome) = true) := by
  unfold prepareFramesForSend at h
  cases hbytes : encodeFrames k frames with
  | error e =>
    rw [hbytes] at h
    cases h
  | ok payload =>
    rw [hbytes] at h
    simp only [bind, Except.bind] at h
    split at h
    · cases h
    rename_i packetLen hlen
    split at h
    · cases h
    rename_i hsize
    split at h
    · cases h
    rename_i hpaced
    injection h with h
    subst h
    exact ⟨rfl, rfl, rfl, rfl, hlen, not_lt.mp hsize, hpaced⟩

/-- A packet that was made for this sender. -/
structure MadeFor (s : Sender B) (prepared : PreparedPacket) : Prop where
  size : prepared.size = s.sizeOf prepared.packetNumberLen prepared.payload
  number : prepared.packetNumber = s.nextPacketNumber
  small : s.nextPacketNumber ≤ maxPacketNumber

lemma prepareFramesForSend_made {frames : List Frame} {a : Attempt} {prepared : PreparedPacket}
    (h : s.prepareFramesForSend k frames a = .ok prepared) : s.MadeFor prepared := by
  obtain ⟨-, hnum, -, -, hlen, -⟩ := prepareFramesForSend_ok k h
  refine ⟨?_, hnum, shortPacketLen_number hlen⟩
  simp [PreparedPacket.size, Sender.sizeOf, shortPacketLen_ok hlen]

/-- How a single-packet path tracks its packet. -/
inductive Tracking : (B → Except Error (Option Nat) × B) → SentPacket → Prop
  | first (record : SentPacket) (payload : Bytes) : Tracking (k.track · record payload) record
  | again (mode : RetransmitMode) (candidate : Candidate) (record : SentPacket)
      (hack : record.ackEliciting = true) : Tracking (trackCandidate k mode candidate record) record

/-- What a single-packet path writes down once the packet is sent, or takes back. -/
inductive Notes : (B → B) → Prop
  | blocked (control : Frame) : Notes (k.noteBlockedSent · control)
  | streams (frames : List Frame) : Notes (k.noteSentStreams · frames)
  | release (frames : List Frame) : Notes (k.releaseFlow · frames)
  | probe (size : Nat) : Notes (k.onProbeSent · size)

variable {offer : List PacketSize} {a : Attempt}

/-- What holds of every single-packet path: these are the steps it is made of. -/
structure Walk (R : Sender B → Sender B → List PacketSize → Attempt → Prop) : Prop where
  stay : ∀ s offer a, R s s offer a
  clock : ∀ {s t offer a}, R s t offer { a with sentTimeNs := some a.clockNs, ecn := .notEct } →
    R s t offer a
  reserved : ∀ {s t offer a} frames,
    R { s with books := (k.reserveFlow s.books frames).2 } t offer a → R s t offer a
  noted : ∀ {s t offer a note}, Notes k note → R s t offer a →
    R s { t with books := note t.books } offer a
  handshakeDone : ∀ {s t offer a} frames groupId, R s t offer a →
    R s (t.handshakeDoneTracked frames groupId) offer a
  send : ∀ {s track record}, Tracking k track record → record.packetNumber = s.nextPacketNumber →
    s.nextPacketNumber ≤ maxPacketNumber → ∀ payload packetNumberLen a pacePacket,
      R s (s.trackAndSend k track record payload packetNumberLen a pacePacket).2
        [s.sizeOf packetNumberLen payload] a

namespace Walk

variable {k} {R : Sender B → Sender B → List PacketSize → Attempt → Prop} (w : Walk k R)
include w

lemma sendPreparedFrames {prepared : PreparedPacket} (hp : s.MadeFor prepared) (a : Attempt) :
    R s (s.sendPreparedFramesEcnAtUnchecked k prepared a).2 [prepared.size] a := by
  unfold sendPreparedFramesEcnAtUnchecked
  simp only
  have h := w.send (.first (sentRecord prepared a) prepared.payload) hp.number hp.small
    prepared.payload prepared.packetNumberLen a (sentRecord prepared a).inFlight
  rw [← hp.size] at h
  rcases hsend : s.trackAndSend k (k.track · (sentRecord prepared a) prepared.payload)
    (sentRecord prepared a) prepared.payload prepared.packetNumberLen a
    (sentRecord prepared a).inFlight with ⟨result, t⟩
  rw [hsend] at h
  cases result with
  | error e => exact h
  | ok groupId => exact w.handshakeDone _ groupId h

lemma sendTrackedFrames (s : Sender B) (frames : List Frame) (a : Attempt) :
    R s (s.sendTrackedFrames k frames a).2 (s.framesOffer k (s.withHandshakeDone frames) a) a := by
  unfold Sender.sendTrackedFrames framesOffer
  split
  · exact w.stay s _ a
  · exact w.stay s _ a
  cases hprep : s.prepareFramesForSend k (s.withHandshakeDone frames) a with
  | error e => exact w.stay s _ a
  | ok prepared => exact w.sendPreparedFrames (prepareFramesForSend_made k hprep) a

lemma sendBlocked (s : Sender B) (control : Frame) (error : Error) (a : Attempt) :
    R s (s.sendBlocked k control error a).2 (s.controlOffer k control a) a := by
  unfold Sender.sendBlocked controlOffer
  have h := w.clock (a := a) (w.sendTrackedFrames s [control] _)
  rcases hsend : s.sendTrackedFrames k [control]
    { a with sentTimeNs := some a.clockNs, ecn := .notEct } with ⟨result, t⟩
  rw [hsend] at h
  cases result with
  | error e => exact h
  | ok _ => exact w.noted (.blocked control) h

lemma sendWithFlowControl {prepared : PreparedPacket} (hp : s.MadeFor prepared) (a : Attempt) :
    R s (s.sendWithFlowControl k prepared a).2 (s.flowOffer k prepared a) a := by
  unfold Sender.sendWithFlowControl flowOffer
  rcases hflow : k.reserveFlow s.books prepared.frames with ⟨verdict, books⟩
  have hbooks : ∀ {t offer}, R { s with books := books } t offer a → R s t offer a := by
    intro t offer h
    refine w.reserved prepared.frames ?_
    rw [hflow]
    exact h
  cases verdict with
  | refused e => exact hbooks (w.stay _ _ a)
  | blocked control e => exact hbooks (w.sendBlocked _ control e a)
  | granted =>
    have h := w.sendPreparedFrames (s := { s with books := books }) ⟨hp.size, hp.number, hp.small⟩ a
    simp only
    rcases hsend : ({ s with books := books } : Sender B).sendPreparedFramesEcnAtUnchecked k
      prepared a with ⟨result, t⟩
    rw [hsend] at h
    cases result with
    | error e => exact hbooks (w.noted (.release prepared.frames) h)
    | ok _ => exact hbooks (w.noted (.streams prepared.frames) h)

lemma sendWithEcnAt (s : Sender B) (frames : List Frame) (a : Attempt) :
    R s (s.sendWithEcnAt k frames a).2 (s.sendOffer k frames a) a := by
  unfold Sender.sendWithEcnAt sendWithEcnAtRaw sendOffer
  split
  · exact w.stay s _ a
  split
  · exact w.stay s _ a
  split
  · exact w.stay s _ a
  · exact w.stay s _ a
  cases hcheck : s.checkStreams k (s.withHandshakeDone frames) with
  | refused e => exact w.stay s _ a
  | blocked control e => exact w.sendBlocked s control e a
  | granted =>
    cases hprep : s.prepareFramesForSend k (s.withHandshakeDone frames) a with
    | error e => exact w.stay s _ a
    | ok prepared => exact w.sendWithFlowControl (prepareFramesForSend_made k hprep) a

lemma sendPmtuProbeAt (s : Sender B) (peerMaxUdpPayload : Nat) (a : Attempt) :
    R s (s.sendPmtuProbeAt k peerMaxUdpPayload a).2 (s.pmtuOffer k peerMaxUdpPayload) a := by
  unfold Sender.sendPmtuProbeAt pmtuOffer
  split
  · exact w.stay s _ a
  rename_i hvalid
  have hsmall : s.nextPacketNumber ≤ maxPacketNumber := by
    unfold validateNextPacketNumber at hvalid
    split at hvalid
    · cases hvalid
    · omega
  cases hprobe : k.probeSize s.books peerMaxUdpPayload with
  | none => exact w.stay s _ a
  | some probeSize =>
    simp only
    split
    · exact w.stay s _ a
    split
    · exact w.stay s _ a
    have h := fun record payload (hnum : record.packetNumber = s.nextPacketNumber) =>
      w.send (.first record payload) hnum hsmall payload 4 a true
    split
    · rename_i _ t hsend
      rw [← show _ = t from congrArg Prod.snd hsend]
      exact h _ _ rfl
    rename_i _ t hsend
    refine w.noted (.probe probeSize) ?_
    rw [← show _ = t from congrArg Prod.snd hsend]
    exact h _ _ rfl

lemma retransmitCandidateAt (s : Sender B) (candidate : Candidate) (mode : RetransmitMode)
    (a : Attempt) :
    R s (s.retransmitCandidateAt k candidate mode a).2 (s.candidateOffer k candidate) a := by
  unfold Sender.retransmitCandidateAt candidateOffer
  split
  · exact w.stay s _ a
  simp only
  split
  · exact w.stay s _ a
  rename_i packetLen hlen
  split
  · exact w.stay s _ a
  have h := fun record hack (hnum : record.packetNumber = s.nextPacketNumber) =>
    w.send (.again mode candidate record hack) hnum (shortPacketLen_number hlen) candidate.payload
      (packetNumberLenForPayload s.nextPacketNumber (k.largestAcknowledged s.books)
        candidate.payload.length) a true
  split
  · rename_i _ t hsend
    rw [← show _ = t from congrArg Prod.snd hsend]
    exact h _ rfl rfl
  rename_i _ t hsend
  rw [← show _ = t from congrArg Prod.snd hsend]
  exact h _ rfl rfl

end Walk

lemma handshakeDoneTracked_quiet (s : Sender B) (frames : List Frame) (groupId : Option Nat) :
    Quiet s (s.handshakeDoneTracked frames groupId) := by
  unfold handshakeDoneTracked
  split
  · exact Quiet.refl s
  split
  · exact ⟨rfl, rfl, rfl, rfl, rfl, rfl⟩
  · exact Quiet.refl s

/-- **Every single-packet path sends what it offers.** -/
theorem sendsOne_walk : Walk k fun s t offer a => s.WithinLimit → SendsOne s t offer a where
  stay s offer a _ := (Quiet.refl s).sendsOne offer a
  clock h := h
  reserved _ h hlim := SendsOne.after (Quiet.books _ _) (h ((Quiet.books _ _).withinLimit hlim))
  noted _ h hlim := (h hlim).quiet (Quiet.books _ _)
  handshakeDone frames groupId h hlim := (h hlim).quiet (handshakeDoneTracked_quiet _ frames groupId)
  send _ _ _ payload packetNumberLen a pacePacket hlim :=
    trackAndSend_sends k hlim _ _ payload packetNumberLen a pacePacket

end Single

end Sender

end Netz.Quic
