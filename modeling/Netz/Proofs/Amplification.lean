/-
The anti-amplification limit.

An endpoint may send an address that is not validated three times what it received from it,
counted in whole datagrams.  The sender credits whole datagrams and debits payloads: every
packet sends the header, the packet number and the tag on top of what was reserved for it.

The counter is exact for what it counts (`Accounted`): it is the payload bytes that the
socket took since the address became unvalidated, on every path and whatever failed.  So the
limit holds as long as the credit left also covers what the counter does not see.
-/
import Netz.Proofs.Nonces

namespace Netz.Quic

open Lib ShortPacket

/-! ### What the wire adds up to -/

/-- Whole datagrams, counted from the last point at which the address became unvalidated. -/
structure Traffic where
  received : Nat := 0
  sent : Nat := 0
  /-- The part of `sent` that is not payload. -/
  overhead : Nat := 0

def Traffic.observe (c : Traffic) : WireEvent → Traffic
  | .sealed _ => c
  | .sent packet =>
    { c with sent := c.sent + packet.length, overhead := c.overhead + packet.overhead }
  | .received bytes => { c with received := c.received + bytes }
  | .unvalidated => {}

def traffic (wire : List WireEvent) : Traffic := wire.foldl Traffic.observe {}

@[simp] lemma traffic_concat (wire : List WireEvent) (event : WireEvent) :
    traffic (wire ++ [event]) = (traffic wire).observe event := by simp [traffic]

lemma observe_sealed (c : Traffic) (packets : List ShortPacket) :
    (packets.map WireEvent.sealed).foldl Traffic.observe c = c := by
  induction packets with
  | nil => rfl
  | cons p rest ih => exact ih

def overheadTotal (packets : List ShortPacket) : Nat := (packets.map overhead).sum

lemma observe_sent (c : Traffic) (packets : List ShortPacket) :
    (packets.map WireEvent.sent).foldl Traffic.observe c = { c with
        sent := c.sent + packetTotal (packets.map size)
        overhead := c.overhead + overheadTotal packets } := by
  induction packets generalizing c with
  | nil => rfl
  | cons p rest ih =>
    rw [List.map_cons, List.foldl_cons, ih]
    simp [Traffic.observe, packetTotal, overheadTotal, size, Nat.add_assoc]

lemma packetTotal_eq (packets : List ShortPacket) :
    packetTotal (packets.map size) = payloadTotal (packets.map size) + overheadTotal packets := by
  induction packets with
  | nil => rfl
  | cons p rest ih =>
    simp only [packetTotal, payloadTotal, overheadTotal, List.map_cons, List.sum_cons,
      size, length] at ih ⊢
    omega

namespace Sender

variable {B : Type} {s t : Sender B} (k : Books B)

/-! ### The counter is exact -/

/--
The counters agree with the wire: what is credited was received, and what is debited is the
payload of what was sent.  A validated address has no counters.
-/
structure Accounted (s : Sender B) : Prop where
  limit : s.WithinLimit
  validated : s.peerAddressValidated = true →
    s.peerAddressBytesReceived = 0 ∧ s.peerAddressBytesSent = 0
  received : s.peerAddressValidated = false → s.peerAddressBytesReceived ≤ (traffic s.wire).received
  sent : s.peerAddressValidated = false →
    s.peerAddressBytesSent + (traffic s.wire).overhead = (traffic s.wire).sent

lemma Sends.traffic {sealed sent : List ShortPacket} {offer : List PacketSize}
    (h : Sends s t sealed sent offer) :
    Quic.traffic t.wire = { Quic.traffic s.wire with
        sent := (Quic.traffic s.wire).sent + packetTotal (sent.map size)
        overhead := (Quic.traffic s.wire).overhead + overheadTotal sent } := by
  simp [h.wire, observe_sealed, observe_sent, Quic.traffic]

lemma Sends.accounted {sealed sent : List ShortPacket} {offer : List PacketSize}
    (h : Sends s t sealed sent offer) (hs : Accounted s) : Accounted t where
  limit := h.withinLimit hs.limit
  validated := by
    intro hv
    rw [h.validated] at hv
    rw [h.received, h.counted, if_pos hv]
    exact hs.validated hv
  received := by
    intro hv
    rw [h.validated] at hv
    rw [h.received, h.traffic]
    exact hs.received hv
  sent := by
    intro hv
    rw [h.validated] at hv
    have hsent := hs.sent hv
    rw [h.counted, h.traffic, hv, packetTotal_eq]
    simp only [Bool.false_eq_true, if_false]
    omega

lemma setPeerAddressValidated_accounted (hs : Accounted s) (validated : Bool) :
    Accounted (s.setPeerAddressValidated validated) := by
  have hlim := (setPeerAddressValidated_silent s validated).limit hs.limit
  cases validated with
  | true => exact ⟨hlim, fun _ => ⟨rfl, rfl⟩, (fun hv => nomatch hv), (fun hv => nomatch hv)⟩
  | false =>
    unfold setPeerAddressValidated at hlim ⊢
    simp only [Bool.false_eq_true, if_false] at hlim ⊢
    by_cases hv : s.peerAddressValidated = true
    · obtain ⟨hrecv, hsent⟩ := hs.validated hv
      rw [if_pos hv] at hlim ⊢
      refine ⟨hlim, (fun hv' => nomatch hv'), fun _ => ?_, fun _ => ?_⟩
      · simp [hrecv]
      show s.peerAddressBytesSent + _ = _
      rw [hsent, traffic_concat]
      rfl
    · simp [hv, hs]

lemma startUnvalidatedPath_accounted (s : Sender B) : Accounted s.startUnvalidatedPath where
  limit := Nat.zero_le _
  validated := fun hv => by cases hv
  received := fun _ => Nat.zero_le _
  sent := by
    intro _
    simp only [startUnvalidatedPath, traffic_concat]
    rfl

lemma arrive_accounted (hs : Accounted s) (bytes : Nat) : Accounted (s.arrive bytes) where
  limit := hs.limit
  validated := hs.validated
  received := by
    intro hv
    have := hs.received hv
    simp only [arrive, traffic_concat, Traffic.observe]
    omega
  sent := by
    intro hv
    simp only [arrive, traffic_concat]
    exact hs.sent hv

/-- The datagram that is credited is the one that has just arrived. -/
theorem arrive_record_accounted (hs : Accounted s) (bytes : Nat) :
    Accounted ((s.arrive bytes).recordPeerAddressBytesReceived bytes) := by
  have hlim := (recordPeerAddressBytesReceived_silent (s.arrive bytes) bytes).limit hs.limit
  have harrive := arrive_accounted hs bytes
  unfold recordPeerAddressBytesReceived at hlim ⊢
  by_cases hv : (s.arrive bytes).peerAddressValidated = true
  · simp [hv, harrive]
  rw [if_neg hv] at hlim ⊢
  refine ⟨hlim, fun hv' => absurd hv' hv, fun hv' => ?_, harrive.sent⟩
  have := hs.received hv'
  simp only [arrive, traffic_concat, Traffic.observe, saturatingAdd]
  omega

lemma step_accounted (op : Op B) (hs : Accounted s) : Accounted (s.step k op).2 := by
  have hlim := step_withinLimit k op hs.limit
  cases hop : op.isSend with
  | true =>
    obtain ⟨sealed, sent, hsends, -⟩ := step_sends k hs.limit op hop
    exact hsends.accounted hs
  | false =>
    cases op with
    | sendWithEcnAt | sendTrackedFrames | sendPmtuProbeAt | retransmitCandidateAt
    | retransmitPtoProbeBatchAt | sendManyProgressAt => cases hop
    | initiateKeyUpdate =>
      simp only [step, initiateKeyUpdate] at hlim ⊢
      split
      · exact hs
      split
      · exact hs
      · exact ⟨hs.limit, hs.validated, hs.received, hs.sent⟩
    | acceptPeerKeyUpdate peerKeyPhase =>
      simp only [step, acceptPeerKeyUpdate] at hlim ⊢
      split
      · exact hs
      split
      · exact hs
      · exact ⟨hs.limit, hs.validated, hs.received, hs.sent⟩
    | receiveDatagram bytes update =>
      cases update with
      | none => exact arrive_accounted hs bytes
      | sameUnvalidated => exact arrive_record_accounted hs bytes
      | natRebinding => exact setPeerAddressValidated_accounted (arrive_accounted hs bytes) true
      | newPath => exact arrive_record_accounted (startUnvalidatedPath_accounted s) bytes
    | setPeerAddressValidated validated => exact setPeerAddressValidated_accounted hs validated
    | beginPeerMigration =>
      simp only [step, beginPeerMigration]
      split
      · exact hs
      · exact startUnvalidatedPath_accounted s
    | importSentEarlyData packetNumber books =>
      simp only [step, importSentEarlyData]
      split
      · exact hs
      cases books with
      | error e => exact hs
      | ok books => exact ⟨hs.limit, hs.validated, hs.received, hs.sent⟩
    | other others => exact ⟨hs.limit, hs.validated, hs.received, hs.sent⟩

/-! ### The limit -/

/-- No more than three times what came from an unvalidated address has gone to it. -/
def WithinAmplification (s : Sender B) : Prop :=
  s.peerAddressValidated = false →
    (traffic s.wire).sent ≤ antiAmplificationMultiplier * (traffic s.wire).received

/--
Credit that is enough for the payloads of the packets planned is also enough for these packets
whole, and for the headers, packet numbers and tags of those that were sent before.
-/
def CoversOverhead (s : Sender B) (op : Op B) : Prop :=
  op.isSend = true → ∀ remaining, s.antiAmplificationLimitRemaining = some remaining →
    payloadTotal (s.offer k op) ≤ remaining →
      (traffic s.wire).overhead + packetTotal (s.offer k op) ≤ remaining

lemma antiAmplificationLimit_le (hs : Accounted s) (hv : s.peerAddressValidated = false) :
    s.antiAmplificationLimit ≤ antiAmplificationMultiplier * (traffic s.wire).received := by
  have hrecv := hs.received hv
  have hmin : s.antiAmplificationLimit ≤
      s.peerAddressBytesReceived * antiAmplificationMultiplier := Nat.min_le_left _ _
  unfold antiAmplificationMultiplier at hmin ⊢
  omega

/-- A call that sends: the whole packets fit because the payloads and the overhead do. -/
theorem send_withinAmplification (op : Op B) (hop : op.isSend = true) (hs : Accounted s)
    (hw : s.WithinAmplification) (hcovers : s.CoversOverhead k op) :
    (s.step k op).2.WithinAmplification := by
  obtain ⟨sealed, sent, hsends, -⟩ := step_sends k hs.limit op hop
  intro hv
  rw [hsends.validated] at hv
  rw [hsends.traffic]
  by_cases hnone : sealed = []
  · have : sent = [] := List.prefix_nil.mp (hnone ▸ hsends.initial)
    subst this
    exact hw hv
  -- The sender has checked that the credit left covers the payloads.
  have hcredit := hsends.credit hv hnone
  have hrem : s.antiAmplificationLimitRemaining =
      some (s.antiAmplificationLimit - s.peerAddressBytesSent) := by
    simp [hv, antiAmplificationLimitRemaining]
  have hroom := hcovers hop _ hrem (by omega)
  have hoffer : packetTotal (sent.map size) ≤ packetTotal (s.offer k op) :=
    packetTotal_le_of_initial ((hsends.initial.map _).trans hsends.sizes)
  have hcounter := hs.sent hv
  have hlim := hs.limit
  unfold WithinLimit at hlim
  calc (traffic s.wire).sent + packetTotal (sent.map size)
      ≤ s.peerAddressBytesSent + ((traffic s.wire).overhead + packetTotal (s.offer k op)) := by
        omega
    _ ≤ s.antiAmplificationLimit := by omega
    _ ≤ antiAmplificationMultiplier * (traffic s.wire).received := antiAmplificationLimit_le hs hv

lemma silent_withinAmplification (op : Op B) (hop : op.isSend = false)
    (hw : s.WithinAmplification) : (s.step k op).2.WithinAmplification := by
  have hstart : s.startUnvalidatedPath.WithinAmplification := by
    intro _
    simp only [startUnvalidatedPath, traffic_concat]
    exact Nat.zero_le _
  have harrive : ∀ (t : Sender B) (bytes : Nat), t.WithinAmplification →
      (t.arrive bytes).WithinAmplification := by
    intro t bytes ht hv
    have := ht hv
    simp only [arrive, traffic_concat, Traffic.observe]
    unfold antiAmplificationMultiplier at this ⊢
    omega
  have hrecord : ∀ (t : Sender B) (bytes : Nat), t.WithinAmplification →
      (t.recordPeerAddressBytesReceived bytes).WithinAmplification := by
    intro t bytes ht
    unfold recordPeerAddressBytesReceived
    split
    · exact ht
    · exact ht
  have hvalidate : ∀ (t : Sender B) (validated : Bool), t.WithinAmplification →
      (t.setPeerAddressValidated validated).WithinAmplification := by
    intro t validated ht
    unfold setPeerAddressValidated
    split
    · intro hv
      cases hv
    split
    · intro _
      simp only [traffic_concat]
      exact Nat.zero_le _
    · exact ht
  cases op with
  | sendWithEcnAt | sendTrackedFrames | sendPmtuProbeAt | retransmitCandidateAt
  | retransmitPtoProbeBatchAt | sendManyProgressAt => cases hop
  | initiateKeyUpdate =>
    simp only [step, initiateKeyUpdate]
    split
    · exact hw
    split
    · exact hw
    · exact hw
  | acceptPeerKeyUpdate peerKeyPhase =>
    simp only [step, acceptPeerKeyUpdate]
    split
    · exact hw
    split
    · exact hw
    · exact hw
  | receiveDatagram bytes update =>
    cases update with
    | none => exact harrive s bytes hw
    | sameUnvalidated => exact hrecord _ bytes (harrive s bytes hw)
    | natRebinding => exact hvalidate _ true (harrive s bytes hw)
    | newPath => exact hrecord _ bytes (harrive _ bytes hstart)
  | setPeerAddressValidated validated => exact hvalidate s validated hw
  | beginPeerMigration =>
    simp only [step, beginPeerMigration]
    split
    · exact hw
    · exact hstart
  | importSentEarlyData packetNumber books =>
    simp only [step, importSentEarlyData]
    split
    · exact hw
    cases books with
    | error | ok => exact hw
  | other others => exact hw

/--
**The anti-amplification limit holds in every run whose calls find credit for whole packets.**
The datagrams, the failures of the socket and the changes of the peer's address are arbitrary.
-/
theorem amplification_limited (config : SendConfig) (peerConnectionId : Bytes)
    (fixedBits : Nat → Bool) (books : B) (ops : List (Op B))
    (hcovers : ∀ e ∈ trace (step k) (init config peerConnectionId fixedBits books) ops,
      e.pre.CoversOverhead k e.input) :
    WithinAmplification (exec (step k) (init config peerConnectionId fixedBits books) ops) := by
  have hinit : Accounted (init config peerConnectionId fixedBits books) ∧
      WithinAmplification (init config peerConnectionId fixedBits books) :=
    ⟨⟨Nat.zero_le _, fun _ => ⟨rfl, rfl⟩, (fun hv => nomatch hv), (fun hv => nomatch hv)⟩,
      fun hv => nomatch hv⟩
  have hrun := trace_induction (step k) (fun s op => s.CoversOverhead k op)
    (fun _ s => Accounted s ∧ s.WithinAmplification) hinit
    (fun _ s op hinv hcovers => by
      refine ⟨step_accounted k op hinv.1, ?_⟩
      cases hop : op.isSend with
      | true => exact send_withinAmplification k op hop hinv.1 hinv.2 hcovers
      | false => exact silent_withinAmplification k op hop hinv.2) ops hcovers
  exact hrun.2

/-- A datagram of 25 bytes from an unvalidated address allows three PINGs of 21 bytes. -/
def threePings : List (Op Unit) :=
  [.setPeerAddressValidated false, .receiveDatagram 25 .sameUnvalidated,
    .sendWithEcnAt [.ping] {}, .sendManyProgressAt [[.ping], [.ping]] {} (.progress 2 false)]

theorem amplification_limited_three_pings :
    (∀ e ∈ trace (step openBooks) openServer threePings, e.pre.CoversOverhead openBooks e.input) ∧
      WithinAmplification (exec (step openBooks) openServer threePings) := by
  have hcovers : ∀ e ∈ trace (step openBooks) openServer threePings,
      e.pre.CoversOverhead openBooks e.input := by
    intro e he
    simp only [threePings, trace_cons, trace_nil, List.mem_cons, List.not_mem_nil, or_false] at he
    rcases he with rfl | rfl | rfl | rfl
    · exact fun hop => by cases hop
    · exact fun hop => by cases hop
    · intro _ remaining hremaining _
      cases hremaining
      decide
    intro _ remaining hremaining _
    cases hremaining
    decide
  exact ⟨hcovers, amplification_limited openBooks _ _ _ _ threePings hcovers⟩

/-- Four of them are 84 bytes, and cost four bytes of a credit of 75. -/
theorem four_pings_amplify :
    ¬ ∀ ops : List (Op Unit), WithinAmplification (exec (step openBooks) openServer ops) := by
  intro hall
  have hlimit := hall (threePings ++ [.sendWithEcnAt [.ping] {}]) (by decide)
  revert hlimit
  decide

end Sender

end Netz.Quic
