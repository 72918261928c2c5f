/-
The next packet number is a new one after a batch as well, and so in every state that a sender with
its accounts can reach.

A batch tracks all its packets before the socket sees the first.  PTO probes that did not leave give
their numbers back; application packets that did not leave are forgotten, but their numbers are used
up.  The other calls take records away or change them in place.
-/
import Netz.Proofs.Nonces
import Netz.Proofs.SendBatch
import Netz.Proofs.SendHeld

namespace Netz.Quic.Sender

open SendAccounts List

variable {P M : Type} {s t : Sender (SendAccounts P M)} (pace : Pacing P M)

/-! ### PTO probes -/

variable {b : SendAccounts P M} {base m : Nat} {sentOk queueOk : Nat → Prop}

lemma tracks_widen (h : Tracks b base sentOk sentOk) (hwider : ∀ n, sentOk n → queueOk n) :
    Tracks b base queueOk queueOk := h.mono le_rfl hwider hwider

lemma tracks_next {record : SentPacket} (hnum : record.packetNumber = m)
    (h : Tracks b base (fun n => n < m ∨ n = record.packetNumber)
      (fun n => n < m ∨ (record.ackEliciting = true ∧ n = record.packetNumber))) :
    Tracks b base (· < m + 1) (· < m + 1) := by
  refine h.mono le_rfl ?_ ?_
  · omega
  · omega

lemma untrackProbe_tracks (a : Attempt) (probe : PreparedProbe) (h : Tracks b base sentOk sentOk) :
    Tracks (b.untrack (probeRecord probe a)) base (fun n => sentOk n ∧ n ≠ probe.packetNumber)
      (fun n => sentOk n ∧ n ≠ probe.packetNumber) :=
  (h.untrack (probeRecord probe a)).mono le_rfl (fun _ hn => hn)
    (fun _ hn => ⟨hn.1, hn.2 rfl⟩)

lemma untrackProbes_tracks (a : Attempt) (probes : List PreparedProbe)
    (h : Tracks b base sentOk sentOk) :
    Tracks (untrackProbes (SendAccounts.books pace) a b probes) base
      (fun n => sentOk n ∧ n ∉ probes.map PreparedProbe.packetNumber)
      (fun n => sentOk n ∧ n ∉ probes.map PreparedProbe.packetNumber) := by
  induction probes generalizing b sentOk with
  | nil => exact tracks_widen h fun n hn => ⟨hn, by simp⟩
  | cons probe rest ih =>
    refine tracks_widen (ih (untrackProbe_tracks a probe h)) ?_
    rintro n ⟨⟨hold, hne⟩, hrest⟩
    rw [map_cons, mem_cons, not_or]
    exact ⟨hold, hne, hrest⟩

lemma trackProbes_tracks (a : Attempt) (probes : List PreparedProbe)
    (h : Tracks b base (· < m) (· < m)) (hbase : base ≤ m)
    (hnums : probes.map PreparedProbe.packetNumber = range' m probes.length)
    (hsmall : ∀ p ∈ probes, p.packetNumber ≤ maxPacketNumber) :
    ((∃ e, (trackProbes (SendAccounts.books pace) a b probes).1 = .error e) ∧
      Tracks (trackProbes (SendAccounts.books pace) a b probes).2 base (· < m) (· < m)) ∨
    ((trackProbes (SendAccounts.books pace) a b probes).1 = .ok () ∧
      Tracks (trackProbes (SendAccounts.books pace) a b probes).2 base (· < m + probes.length)
        (· < m + probes.length)) := by
  induction probes generalizing b m with
  | nil => exact .inr ⟨rfl, h⟩
  | cons probe rest ih =>
    rw [map_cons, length_cons, range'_succ, cons.injEq] at hnums
    obtain ⟨hnum, hrest⟩ := hnums
    have hack : (probeRecord probe a).ackEliciting = true := rfl
    have hone := trackRetransmission_tracksOne b .ptoProbe probe.candidate hack h
      (by rw [← hnum] at hbase; exact hbase)
      (fun n hn => by show n < probe.packetNumber; rw [hnum]; exact hn)
      (hsmall probe (mem_cons_self ..))
    unfold trackProbes
    rcases htrack : (SendAccounts.books pace).trackRetransmission b .ptoProbe probe.candidate
      (probeRecord probe a) with ⟨result, b₁⟩
    rw [show b.trackRetransmission .ptoProbe probe.candidate (probeRecord probe a)
      = (result, b₁) from htrack] at hone
    cases result with
    | error e =>
      rcases hone with ⟨-, hkeep⟩ | ⟨⟨_, hok⟩, -⟩
      · exact .inl ⟨⟨e, rfl⟩, hkeep⟩
      · cases hok
    | ok _ =>
      rcases hone with ⟨⟨e, herr⟩, -⟩ | ⟨-, hadded⟩
      · cases herr
      have hlater := ih (tracks_next hnum hadded) (Nat.le_succ_of_le hbase) hrest
        (fun p hp => hsmall p (mem_cons_of_mem _ hp))
      dsimp only
      rcases hall : trackProbes (SendAccounts.books pace) a b₁ rest with ⟨result, b₂⟩
      rw [hall] at hlater
      cases result with
      | error e =>
        rcases hlater with ⟨-, hkeep⟩ | ⟨hok, -⟩
        · exact .inl ⟨⟨e, rfl⟩, tracks_widen (untrackProbe_tracks a probe hkeep) (by omega)⟩
        · cases hok
      | ok _ =>
        rcases hlater with ⟨⟨e, herr⟩, -⟩ | ⟨-, hkeep⟩
        · cases herr
        refine .inr ⟨rfl, tracks_widen hkeep fun n hn => ?_⟩
        rw [length_cons]
        omega

lemma sealProbes_idle (s : Sender (SendAccounts P M)) (probes : List PreparedProbe) :
    Idle s (s.sealProbes probes).2.2 := by
  induction probes generalizing s with
  | nil => exact Idle.refl s
  | cons probe rest ih =>
    unfold sealProbes
    have hkeys := prepareAeadForEncryption_idle s probe.packetNumber
    rcases hprep : s.prepareAeadForEncryption probe.packetNumber with ⟨result, s₁⟩
    rw [hprep] at hkeys
    cases result with
    | error e => exact hkeys
    | ok _ =>
      have hseal : Idle s₁ (s₁.sealShortPacket probe.packetNumber probe.packetNumberLen
        probe.candidate.payload) := ⟨⟨rfl, rfl⟩, rfl⟩
      exact hkeys.trans (hseal.trans (ih _))

lemma below_of_removed {m len n : Nat} (first : Nat) (hfirst : first ≤ len) (hn : n < m + len)
    (hout : n ∉ range' (m + first) (len - first)) : n < m + first := by
  by_contra hge
  apply hout
  rw [mem_range'_1]
  omega

variable {u : Sender (SendAccounts P M)} {probes : List PreparedProbe}

lemma abandonProbes_held
    (h : Tracks u.books u.nextPacketNumber (· < u.nextPacketNumber + probes.length)
      (· < u.nextPacketNumber + probes.length)) (hnums : probes.map PreparedProbe.packetNumber
      = range' u.nextPacketNumber probes.length) (hsmall : u.nextPacketNumber ≤ varintMax + 1)
    (a : Attempt) : Held (u.abandonProbes (SendAccounts.books pace) probes a) := by
  have hrel := releaseAntiAmplification_idle u (probesPayloadLen probes)
  unfold abandonProbes
  refine ⟨?_, by rw [hrel.next]; exact hsmall⟩
  rw [hrel.next]
  have hall := untrackProbes_tracks pace a probes (hrel.calm.tracks h)
  rw [hnums] at hall
  exact tracks_widen hall fun n hn => below_of_removed 0 (Nat.zero_le _) hn.1 hn.2

lemma noteSent_calm (nowNs : Nat) (packets : List ShortPacket) (b : SendAccounts P M) :
    Calm b (noteSent (SendAccounts.books pace) nowNs b packets) := by
  induction packets generalizing b with
  | nil => exact Calm.refl b
  | cons packet rest ih =>
    have hone := notePacketSent_calm pace b packet nowNs true
    have hrest := ih (b.notePacketSent pace packet nowNs true)
    exact ⟨hrest.sent.trans hone.sent, hrest.recovery.trans hone.recovery⟩

/-- **The probes that left keep their numbers, the others give them back.** -/
theorem commitProbes_held {packets : List ShortPacket}
    (h : Tracks u.books u.nextPacketNumber (· < u.nextPacketNumber + probes.length)
      (· < u.nextPacketNumber + probes.length)) (hnums : probes.map PreparedProbe.packetNumber
      = range' u.nextPacketNumber probes.length)
    (hsmall : u.nextPacketNumber + probes.length ≤ varintMax + 1)
    (hlen : packets.length = probes.length) (sentCount : Nat) (a : Attempt) :
    Held (u.commitProbes (SendAccounts.books pace) probes packets sentCount a) := by
  have hhand : Idle u (u.handOver (packets.take sentCount)) := ⟨⟨rfl, rfl⟩, rfl⟩
  have hidle := hhand.trans (releaseAntiAmplification_idle (u.handOver (packets.take sentCount))
    (probesPayloadLen probes - probesPayloadLen (probes.take sentCount)))
  unfold commitProbes
  dsimp only
  generalize (u.handOver (packets.take sentCount)).releaseAntiAmplification
    (probesPayloadLen probes - probesPayloadLen (probes.take sentCount)) = v at hidle ⊢
  have hcount : (packets.take sentCount).length = min sentCount probes.length := by
    rw [length_take, hlen]
  rw [hcount]
  constructor
  · rw [Tracked]
    dsimp only
    rw [hidle.next]
    have hnoted := (noteSent_calm pace a.nowNs (packets.take sentCount) v.books).tracks
      (hidle.calm.tracks h)
    have hall := untrackProbes_tracks pace a (probes.drop sentCount) hnoted
    rw [map_drop, hnums, drop_range'] at hall
    refine (tracks_widen hall fun n hn => ?_).mono (Nat.le_add_right _ _) (fun _ hn => hn)
      fun _ hn => hn
    by_contra hge
    apply hn.2
    rw [mem_range'_1]
    omega
  show v.nextPacketNumber + min sentCount probes.length ≤ varintMax + 1
  rw [hidle.next]
  omega

/-- Numbers in a row leave room for the last of them. -/
theorem room_of_numbers {α : Type} {l : List α} {number : α → Nat} {start : Nat}
    (hstart : start ≤ varintMax + 1) (hnumbers : l.map number = range' start l.length)
    (hsmall : ∀ a ∈ l, number a ≤ maxPacketNumber) : start + l.length ≤ varintMax + 1 := by
  by_cases hnil : l.length = 0
  · omega
  have hlast : start + (l.length - 1) ∈ l.map number := by
    rw [hnumbers, mem_range'_1]
    omega
  obtain ⟨a, ha, hnum⟩ := mem_map.mp hlast
  have := hsmall a ha
  unfold maxPacketNumber at this
  omega

lemma sendProbes_held (hs : Held s) (hplan : ProbesPlanned s probes) (a : Attempt)
    (delivery : BatchDelivery) :
    Held (s.sendProbes (SendAccounts.books pace) probes a delivery).2 := by
  have hroom := room_of_numbers hs.small hplan.numbers hplan.small
  unfold sendProbes
  cases hres : s.reserveAntiAmplification (probesPayloadLen probes) with
  | error e => exact hs
  | ok s₁ =>
    have hidle := reserveAntiAmplification_idle hres
    have htracked : Tracks s₁.books s.nextPacketNumber (· < s.nextPacketNumber)
      (· < s.nextPacketNumber) := hidle.calm.tracks hs.tracked
    have htrack := trackProbes_tracks pace a probes htracked le_rfl hplan.numbers
      hplan.small
    dsimp only
    rcases hall : trackProbes (SendAccounts.books pace) a s₁.books probes with ⟨result, b⟩
    rw [hall] at htrack
    cases result with
    | error e =>
      rcases htrack with ⟨-, hkeep⟩ | ⟨hok, -⟩
      · have hheld : Held { s₁ with books := b } := by
          refine ⟨?_, by show s₁.nextPacketNumber ≤ _; rw [hidle.next]; exact hs.small⟩
          simp [Tracked, hidle.next, hkeep]
        exact (releaseAntiAmplification_idle _ _).held hheld
      · cases hok
    | ok _ =>
      rcases htrack with ⟨⟨e, herr⟩, -⟩ | ⟨-, hkeep⟩
      · cases herr
      have hseal := sealProbes_idle { s₁ with books := b } probes
      have hfacts : ∀ u : Sender (SendAccounts P M), Idle { s₁ with books := b } u →
          u.nextPacketNumber = s.nextPacketNumber ∧
          Tracks u.books u.nextPacketNumber (· < u.nextPacketNumber + probes.length)
            (· < u.nextPacketNumber + probes.length) := by
        intro u hu
        have hnext : u.nextPacketNumber = s.nextPacketNumber := hu.next.trans hidle.next
        refine ⟨hnext, ?_⟩
        rw [hnext]
        exact hu.calm.tracks hkeep
      have habandon : ∀ u : Sender (SendAccounts P M), Idle { s₁ with books := b } u →
          Held (u.abandonProbes (SendAccounts.books pace) probes a) := by
        intro u hu
        obtain ⟨hnext, htracks⟩ := hfacts u hu
        exact abandonProbes_held pace htracks (by rw [hnext]; exact hplan.numbers)
          (by rw [hnext]; exact hs.small) a
      cases delivery with
      | outOfMemory => exact habandon _ (Idle.refl _)
      | refused =>
        dsimp only
        rcases hsealed : ({ s₁ with books := b } : Sender (SendAccounts P M)).sealProbes probes
          with ⟨result, sealed, u⟩
        rw [hsealed] at hseal
        cases result with
        | some | none => exact habandon u hseal
      | progress sentCount sendError =>
        dsimp only
        have hlen := sealProbes_length (s := { s₁ with books := b }) probes
        rcases hsealed : ({ s₁ with books := b } : Sender (SendAccounts P M)).sealProbes probes
          with ⟨result, sealed, u⟩
        rw [hsealed] at hseal hlen
        cases result with
        | some e => exact habandon u hseal
        | none =>
          obtain ⟨hnext, htracks⟩ := hfacts u hseal
          exact commitProbes_held pace htracks (by rw [hnext]; exact hplan.numbers)
            (by rw [hnext]; exact hroom) (hlen rfl) sentCount a

lemma retransmitPtoProbeBatchAt_held (hs : Held s) (first remaining : Nat) (a : Attempt)
    (delivery : BatchDelivery) :
    Held (s.retransmitPtoProbeBatchAt (SendAccounts.books pace) first remaining a delivery).2 := by
  unfold retransmitPtoProbeBatchAt
  cases hplan : s.planProbes (SendAccounts.books pace) first a.nowNs
      (min remaining maxBatchPackets) [] with
  | error e => exact hs
  | ok probes =>
    have hplanned := planProbes_planned (SendAccounts.books pace) first a.nowNs _ [] probes
      ⟨rfl, nofun, nofun⟩ hplan
    cases probes with
    | nil => exact hs
    | cons probe rest => exact sendProbes_held pace hs hplanned a delivery

/-! ### Application packets -/

/-- A batch tracks its packets as far as it protects them. -/
theorem sealPackets_tracks (a : Attempt) (packets : List PreparedPacket)
    (h : Tracks u.books base (· < m) (· < m)) (hbase : base ≤ m)
    (hnums : packets.map PreparedPacket.packetNumber = range' m packets.length)
    (hsmall : ∀ p ∈ packets, p.packetNumber ≤ maxPacketNumber) :
    (u.sealPackets (SendAccounts.books pace) a packets).2.2.nextPacketNumber = u.nextPacketNumber ∧
      (u.sealPackets (SendAccounts.books pace) a packets).2.1.length ≤ packets.length ∧
      Tracks (u.sealPackets (SendAccounts.books pace) a packets).2.2.books base
        (· < m + (u.sealPackets (SendAccounts.books pace) a packets).2.1.length)
        (· < m + (u.sealPackets (SendAccounts.books pace) a packets).2.1.length) := by
  induction packets generalizing u m with
  | nil => exact ⟨rfl, le_rfl, h⟩
  | cons packet rest ih =>
    rw [map_cons, length_cons, range'_succ, cons.injEq] at hnums
    obtain ⟨hnum, hrest⟩ := hnums
    have hone := trackBatched_tracksOne u.books (batchRecord packet a) packet.payload h
      (by rw [← hnum] at hbase; exact hbase)
      (fun n hn => by show n < packet.packetNumber; rw [hnum]; exact hn)
      (hsmall packet (mem_cons_self ..))
    unfold sealPackets
    rcases htrack : (SendAccounts.books pace).trackBatched u.books (batchRecord packet a)
      packet.payload with ⟨result, b₁⟩
    rw [show u.books.trackBatched (batchRecord packet a) packet.payload = (result, b₁) from htrack]
      at hone
    cases result with
    | error e =>
      rcases hone with ⟨-, hkeep⟩ | ⟨⟨_, hok⟩, -⟩
      · exact ⟨rfl, Nat.zero_le _, hkeep⟩
      · cases hok
    | ok _ =>
      rcases hone with ⟨⟨e, herr⟩, -⟩ | ⟨-, hadded⟩
      · cases herr
      dsimp only at hadded ⊢
      have hbelow : Tracks (({ u with books := b₁ } : Sender (SendAccounts P M)
          ).sealShortPacket packet.packetNumber packet.packetNumberLen packet.payload).books
          base (· < m + 1) (· < m + 1) := by
        exact tracks_next hnum hadded
      have hlater := ih hbelow (Nat.le_succ_of_le hbase) hrest
        (fun p hp => hsmall p (mem_cons_of_mem _ hp))
      rcases hseal : (({ u with books := b₁ } : Sender (SendAccounts P M)).sealShortPacket
        packet.packetNumber packet.packetNumberLen packet.payload).sealPackets
        (SendAccounts.books pace) a rest with ⟨result, sealed, v⟩
      rw [hseal] at hlater
      dsimp only at hlater
      obtain ⟨hnext, hlen, htracks⟩ := hlater
      refine ⟨hnext, Nat.succ_le_succ hlen, tracks_widen htracks fun n hn => ?_⟩
      show n < m + (sealed.length + 1)
      omega

lemma untrackPackets_tracks (a : Attempt) (packets : List PreparedPacket)
    (h : Tracks b base sentOk queueOk) :
    Tracks (untrackPackets (SendAccounts.books pace) a b packets) base sentOk queueOk := by
  induction packets generalizing b with
  | nil => exact h
  | cons packet rest ih =>
    refine ih ((h.untrackBatched (batchRecord packet a)).mono le_rfl ?_ ?_)
    · exact fun n hn => hn.1
    · exact fun n hn => hn.1

lemma notePackets_calm (nowNs : Nat) (packets : List (PreparedPacket × ShortPacket))
    (b : SendAccounts P M) : Calm b (notePackets (SendAccounts.books pace) nowNs b packets) := by
  induction packets generalizing b with
  | nil => exact Calm.refl b
  | cons packet rest ih =>
    have hone := notePacketSent_calm pace b packet.2 nowNs (packetInFlight packet.1.frames)
    have hrest := ih ((b.notePacketSent pace packet.2 nowNs
      (packetInFlight packet.1.frames)).noteSentStreams packet.1.frames)
    exact ⟨hrest.sent.trans hone.sent, hrest.recovery.trans hone.recovery⟩

lemma prepareBatchKeys_idle (s : Sender (SendAccounts P M)) (needsKeyUpdate : Bool) :
    Idle s (s.prepareBatchKeys needsKeyUpdate).2 := by
  unfold prepareBatchKeys
  split
  · exact prepareAeadForEncryption_idle s _
  · exact Idle.refl s

lemma abandonPackets_held (count : Nat)
    (h : Tracks u.books u.nextPacketNumber (· < u.nextPacketNumber + count)
      (· < u.nextPacketNumber + count)) (hsmall : u.nextPacketNumber + count ≤ varintMax + 1)
    (packets : List PreparedPacket) (needsKeyUpdate : Bool) (a : Attempt) :
    Held (u.abandonPackets (SendAccounts.books pace) packets count needsKeyUpdate a) := by
  have hidle := releaseAntiAmplification_idle u (packetsPayloadLen packets)
  unfold abandonPackets
  generalize u.releaseAntiAmplification (packetsPayloadLen packets) = v at hidle ⊢
  have hout := untrackPackets_tracks pace a (packets.take count) (hidle.calm.tracks h)
  have hbooks : Tracks ((SendAccounts.books pace).releaseBatch
      (untrackPackets (SendAccounts.books pace) a v.books (packets.take count)) packets)
      u.nextPacketNumber (· < u.nextPacketNumber + count) (· < u.nextPacketNumber + count) :=
    hout.congr rfl rfl
  split
  · rename_i hzero
    have hless : ∀ n, n < u.nextPacketNumber + count → n < u.nextPacketNumber := by omega
    refine ⟨?_, by show v.nextPacketNumber ≤ _; rw [hidle.next]; omega⟩
    rw [hidle.next]
    exact hbooks.mono le_rfl hless hless
  refine ⟨?_, by show v.nextPacketNumber + count ≤ _; rw [hidle.next]; exact hsmall⟩
  dsimp only
  rw [hidle.next]
  exact hbooks.mono (Nat.le_add_right _ _) (fun _ hn => hn) (fun _ hn => hn)

lemma commitPackets_held {sealed : List ShortPacket}
    (h : Tracks u.books u.nextPacketNumber (· < u.nextPacketNumber + sealed.length)
      (· < u.nextPacketNumber + sealed.length))
    (hsmall : u.nextPacketNumber + sealed.length ≤ varintMax + 1) (packets : List PreparedPacket)
    (sentCount : Nat) (needsKeyUpdate : Bool) (a : Attempt) :
    Held (u.commitPackets (SendAccounts.books pace) packets sealed sentCount needsKeyUpdate a) := by
  have hhand : Idle u (u.handOver (sealed.take sentCount)) := ⟨⟨rfl, rfl⟩, rfl⟩
  have hidle := hhand.trans (releaseAntiAmplification_idle (u.handOver (sealed.take sentCount))
    (packetsPayloadLen packets - packetsPayloadLen (packets.take sentCount)))
  unfold commitPackets
  dsimp only
  generalize (u.handOver (sealed.take sentCount)).releaseAntiAmplification
    (packetsPayloadLen packets - packetsPayloadLen (packets.take sentCount)) = v at hidle ⊢
  have hnoted := (notePackets_calm pace a.nowNs ((packets.zip sealed).take sentCount) v.books).tracks
    (hidle.calm.tracks h)
  have hout := untrackPackets_tracks pace a (packets.drop sentCount) hnoted
  have hbooks : Tracks ((SendAccounts.books pace).releaseBatch
      (untrackPackets (SendAccounts.books pace) a
        (notePackets (SendAccounts.books pace) a.nowNs v.books ((packets.zip sealed).take sentCount))
        (packets.drop sentCount)) (packets.drop sentCount))
      u.nextPacketNumber (· < u.nextPacketNumber + sealed.length)
      (· < u.nextPacketNumber + sealed.length) := hout.congr rfl rfl
  refine ⟨?_, by show v.nextPacketNumber + sealed.length ≤ _; rw [hidle.next]; exact hsmall⟩
  rw [hidle.next]
  exact hbooks.mono (Nat.le_add_right _ _) (fun _ hn => hn) (fun _ hn => hn)

lemma sendPackets_held (hs : Held s) {packets : List PreparedPacket}
    (hplan : PacketsPlanned s packets) (needsKeyUpdate : Bool) (a : Attempt)
    (delivery : BatchDelivery) :
    Held (s.sendPackets (SendAccounts.books pace) packets needsKeyUpdate a delivery).2 := by
  have hroom := room_of_numbers hs.small hplan.numbers hplan.small
  unfold sendPackets
  split
  · exact hs
  have hcalm := reserveBatch_calm s.books packets
  rcases hbatch : (SendAccounts.books pace).reserveBatch s.books packets with ⟨result, b⟩
  rw [show s.books.reserveBatch packets = (result, b) from hbatch] at hcalm
  have hbooks : Held { s with books := b } := (Calm.idle hcalm).held hs
  cases result with
  | error e => exact hbooks
  | ok _ =>
    dsimp only
    cases hres : ({ s with books := b } : Sender (SendAccounts P M)).reserveAntiAmplification
      (packetsPayloadLen packets) with
    | error e =>
      have hrel : Calm s.books (b.releaseBatch packets) := ⟨hcalm.sent, hcalm.recovery⟩
      exact (Calm.idle hrel).held hs
    | ok s₁ =>
      have hkeys := prepareBatchKeys_idle s₁ needsKeyUpdate
      dsimp only
      rcases hprep : s₁.prepareBatchKeys needsKeyUpdate with ⟨result, s₂⟩
      rw [hprep] at hkeys
      have hidle : Idle { s with books := b } s₂ :=
        (reserveAntiAmplification_idle hres).trans hkeys
      have hnext : s₂.nextPacketNumber = s.nextPacketNumber := hidle.next
      have htracked : Tracks s₂.books s₂.nextPacketNumber (· < s₂.nextPacketNumber)
        (· < s₂.nextPacketNumber) := (hidle.held hbooks).tracked
      cases result with
      | error e =>
        exact abandonPackets_held pace 0 htracked
          (by rw [hnext]; exact hs.small) packets needsKeyUpdate a
      | ok _ =>
        dsimp only
        have hseal := sealPackets_tracks pace a packets htracked le_rfl
          (by rw [hnext]; exact hplan.numbers) hplan.small
        rcases hsealed : s₂.sealPackets (SendAccounts.books pace) a packets with
          ⟨result, sealed, s₃⟩
        rw [hsealed] at hseal
        dsimp only at hseal
        obtain ⟨hsame, hlen, htracks⟩ := hseal
        rw [← hsame] at htracks
        have hcount : s₃.nextPacketNumber + sealed.length ≤ varintMax + 1 := by omega
        cases result with
        | some e => exact abandonPackets_held pace _ htracks hcount packets needsKeyUpdate a
        | none =>
          cases delivery with
          | outOfMemory | refused =>
            exact abandonPackets_held pace _ htracks hcount packets needsKeyUpdate a
          | progress sentCount sendError =>
            exact commitPackets_held pace htracks hcount packets sentCount
              needsKeyUpdate a

lemma sendManyProgressAt_held (hs : Held s) (packets : List (List Frame)) (a : Attempt)
    (delivery : BatchDelivery) :
    Held (s.sendManyProgressAt (SendAccounts.books pace) packets a delivery).2 := by
  unfold sendManyProgressAt
  cases packets with
  | nil => exact hs
  | cons first rest =>
    dsimp only
    split
    · exact hs
    split
    · have h := (held_walk pace).sendWithEcnAt s first { a with ecn := .notEct } hs
      rcases hsend : s.sendWithEcnAt (SendAccounts.books pace) first { a with ecn := .notEct } with
        ⟨result, u⟩
      rw [hsend] at h
      cases result with
      | error | ok => exact h
    split
    · exact hs
    split
    · have hidle : Idle s s.enterAeadLimitReached := ⟨⟨rfl, rfl⟩, rfl⟩
      exact hidle.held hs
    cases hplan : s.planBatch (SendAccounts.books pace) (first :: rest)
      { a with ecn := .notEct } with
    | refused e => exact hs
    | blocked control e =>
      have h := (held_walk pace).sendBlocked s control e { a with ecn := .notEct } hs
      dsimp only
      unfold sendBatchBlocked
      rcases hsend : s.sendBlocked (SendAccounts.books pace) control e
        { a with ecn := .notEct } with ⟨result, u⟩
      rw [hsend] at h
      cases result with
      | error | ok => exact h
    | ready planned =>
      exact sendPackets_held pace hs (planBatch_planned _ hplan) s.needsKeyUpdate _ delivery

end Netz.Quic.Sender

namespace Netz.Quic.Sender

open SendAccounts

variable {P M : Type} {s : Sender (SendAccounts P M)} (pace : Pacing P M)

/-- What acknowledgements, losses, timers and received frames do to the accounts. -/
inductive Settles (b : SendAccounts P M) : SendAccounts P M → Prop
  | sent (op : IndexedTracker.Op) (hop : op.sends = none) :
      Settles b { b with sent := (IndexedTracker.step b.sent op).2 }
  | forget (packetNumber : Nat) :
      Settles b { b with recovery := (b.recovery.forgetPacketNumber packetNumber).2 }
  | acknowledge (packetNumber : Nat) :
      Settles b { b with recovery := (b.recovery.acknowledgePacketNumber packetNumber).2 }
  | ack (frame : AckFrame) : Settles b { b with recovery := (b.recovery.applyAck frame).2 }
  | rest {b' : SendAccounts P M} (hcalm : Calm b b') : Settles b b'

/-- The call leaves the accounts to the send paths. -/
def Op.plain {B : Type} : Op B → Bool
  | .importSentEarlyData _ _ | .other _ => false
  | _ => true

/-- **The states of a sender that keeps its accounts.**  A 0-RTT packet is imported with a
record of its own. -/
inductive Reached : Sender (SendAccounts P M) → Prop
  | init (config : SendConfig) (peerConnectionId : Bytes) (fixedBits : Nat → Bool)
      (b : SendAccounts P M) (hsent : b.sent = {}) (hrecovery : b.recovery = {}) :
      Reached (Sender.init config peerConnectionId fixedBits b)
  | call {s : Sender (SendAccounts P M)} (hs : Reached s) (op : Op (SendAccounts P M))
      (hop : op.plain = true) : Reached (s.step (SendAccounts.books pace) op).2
  | settle {s : Sender (SendAccounts P M)} (hs : Reached s) (others : Others (SendAccounts P M))
      (hothers : Settles s.books others.books) : Reached (s.replaceOthers others)
  | imported {s : Sender (SendAccounts P M)} (hs : Reached s) {b : SendAccounts P M}
      (hcalm : Calm s.books b) {record : SentPacket}
      (hnumber : record.packetNumber = s.nextPacketNumber) (hmax : record.packetNumber ≤ varintMax)
      (payload : Bytes) {b' : SendAccounts P M} {group : Option Nat}
      (htrack : b.trackPacket record payload = (.ok group, b')) :
      Reached { s with books := b', nextPacketNumber := s.nextPacketNumber + 1 }

lemma Settles.tracked {b b' : SendAccounts P M} (h : Settles b b') {next : Nat}
    (ht : b.Tracked next) (hsmall : next ≤ varintMax + 1) : b'.Tracked next := by
  have hkept := ht.kept hsmall
  cases h with
  | sent op hop => exact tracked_of_kept (hkept.step op hop) ht.sound ht.queueNumbers
  | forget n =>
    have hout := Tracks.forgetPacketNumber ht n
    exact hout.mono le_rfl (fun _ hn => hn) (fun _ hn => hn.1)
  | acknowledge n =>
    exact tracked_of_kept hkept (ht.sound.acknowledgePacketNumber n)
      (fun m hm => ht.queueNumbers m ((Recovery.Queue.acknowledge_numbers _ n).subset hm))
  | ack frame =>
    exact tracked_of_kept hkept (ht.sound.applyAck frame)
      (fun m hm => ht.queueNumbers m ((Recovery.Queue.applyAck_numbers _ frame).subset hm))
  | rest hcalm => exact hcalm.tracks ht

lemma step_idle (op : Op (SendAccounts P M)) (hsend : op.isSend = false) (hop : op.plain = true) :
    Idle s (s.step (SendAccounts.books pace) op).2 := by
  cases op with
  | sendWithEcnAt | sendTrackedFrames | sendPmtuProbeAt | retransmitCandidateAt
  | retransmitPtoProbeBatchAt | sendManyProgressAt => cases hsend
  | importSentEarlyData | other => cases hop
  | initiateKeyUpdate =>
    simp only [step, initiateKeyUpdate]
    split
    · exact Idle.refl s
    · split <;> exact ⟨⟨rfl, rfl⟩, rfl⟩
  | acceptPeerKeyUpdate peerKeyPhase =>
    simp only [step, acceptPeerKeyUpdate]
    split
    · exact Idle.refl s
    · split <;> exact ⟨⟨rfl, rfl⟩, rfl⟩
  | receiveDatagram bytes update =>
    simp only [step]
    cases update with
    | none => exact ⟨⟨rfl, rfl⟩, rfl⟩
    | sameUnvalidated =>
      simp only [commitPeerAddressUpdate, recordPeerAddressBytesReceived]
      split <;> exact ⟨⟨rfl, rfl⟩, rfl⟩
    | natRebinding | newPath => exact ⟨⟨rfl, rfl⟩, rfl⟩
  | setPeerAddressValidated validated =>
    simp only [step, setPeerAddressValidated]
    split
    · exact ⟨⟨rfl, rfl⟩, rfl⟩
    · split <;> exact ⟨⟨rfl, rfl⟩, rfl⟩
  | beginPeerMigration =>
    simp only [step, beginPeerMigration]
    split <;> exact ⟨⟨rfl, rfl⟩, rfl⟩

/-- **In every state reached the next packet number is a new one.** -/
theorem Reached.held (h : Reached pace s) : Held s := by
  induction h with
  | init config peerConnectionId fixedBits b hsent hrecovery =>
    exact ⟨tracked_init b hsent hrecovery, Nat.zero_le _⟩
  | @call s hs op hop ih =>
    cases hsend : op.isSend with
    | false => exact (step_idle pace op hsend hop).held ih
    | true =>
      cases op with
      | sendWithEcnAt frames a => exact (held_walk pace).sendWithEcnAt s frames a ih
      | sendTrackedFrames frames a => exact (held_walk pace).sendTrackedFrames s frames a ih
      | sendPmtuProbeAt peerMaxUdpPayload a =>
        simp only [step, answer_state]
        exact (held_walk pace).sendPmtuProbeAt s peerMaxUdpPayload a ih
      | retransmitCandidateAt candidate mode a =>
        exact (held_walk pace).retransmitCandidateAt s candidate mode a ih
      | retransmitPtoProbeBatchAt first remaining a delivery =>
        simp only [step, answer_state]
        exact retransmitPtoProbeBatchAt_held pace ih first remaining a delivery
      | sendManyProgressAt packets a delivery =>
        simp only [step, answer_state]
        exact sendManyProgressAt_held pace ih packets a delivery
      | initiateKeyUpdate | acceptPeerKeyUpdate | receiveDatagram | setPeerAddressValidated
      | beginPeerMigration => cases hsend
      | importSentEarlyData | other => cases hop
  | settle hs others hothers ih => exact ⟨hothers.tracked ih.tracked ih.small, ih.small⟩
  | @imported s hs b hcalm record hnum hmax payload b' group htrack ih =>
    have ht : b.Tracked s.nextPacketNumber := hcalm.tracks ih.tracked
    rw [hnum] at hmax
    exact ⟨ht.trackPacket_next hnum hmax htrack, Nat.succ_le_succ hmax⟩

lemma Reached.withinLimit (h : Reached pace s) : s.WithinLimit := by
  induction h with
  | init config peerConnectionId fixedBits b hsent hrecovery => exact Nat.zero_le _
  | call hs op hop ih => exact step_withinLimit _ op ih
  | settle hs others hothers ih => exact ih
  | imported hs hcalm hnum hmax payload htrack ih => exact ih

end Netz.Quic.Sender
