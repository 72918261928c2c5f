/-
The packet numbers that the accounts of a sender track.

Every packet that is in flight has a record in the tracker of sent packets, and an
ack-eliciting one has a copy in the retransmission queue.  `Tracks` bounds the numbers of
both, so that the next packet number is a new one to each of them.  A send path first adds
the numbers it is about to use and takes out again those it did not use.
-/
import Netz.Proofs.RecoveryQueue
import Netz.Proofs.SentKept
import Netz.Proofs.Stream
import Netz.Quic.SendAccounts

namespace Netz.Quic

open Lib SendAccounts List

/-! ### The numbers of the retransmission queue -/

namespace Recovery.Queue

open Recovery.PendingDatagram

variable {q : Queue}

def numbers (q : Queue) : List Nat := q.pending.flatMap packetNumbers

lemma Sound.unknown (h : Sound q) {p : Nat} (hp : p ∉ q.numbers) : q.packetIndex.get p = none := by
  rw [h.packets.get_eq_none]
  intro entry hmem hk
  exact hp (mem_flatMap.mpr ⟨entry, hmem, hk⟩)

/-- The group that a packet is tracked under. -/
def group (q : Queue) (packetNumber : Nat) (payload : Bytes) : PendingDatagram where
  groupId := q.nextGroupId
  originalPacketNumber := some packetNumber
  newestPacketNumber := packetNumber
  payload := payload

lemma trackSent_cases (q : Queue) (p : Nat) (payload : Bytes) :
    (∃ e, q.trackSent p payload = (.error e, q)) ∨
    (payload ≠ [] ∧ q.packetIndex.get p = none ∧ q.nextGroupId + 1 ≤ maxU64 ∧
      (q.trackSent p payload).1 = .ok q.nextGroupId ∧
      (q.trackSent p payload).2.pending = q.pending ++ [q.group p payload] ∧
      (q.trackSent p payload).2.nextGroupId = q.nextGroupId + 1) := by
  unfold trackSent
  by_cases hempty : payload.length = 0
  · simp [hempty]
  rw [if_neg hempty]
  by_cases hknown : (q.packetIndex.get p).isSome = true
  · simp [hknown]
  rw [if_neg hknown]
  cases hnext : checkedAdd q.nextGroupId 1 with
  | none => exact .inl ⟨_, rfl⟩
  | some next =>
    obtain ⟨rfl, hle⟩ := checkedAdd_eq_some.mp hnext
    refine .inr ⟨?_, by simpa using hknown, hle, rfl, rfl, rfl⟩
    intro hnil
    simp [hnil] at hempty

lemma recordRetransmission_cases (q : Queue) (i p : Nat) :
    (∃ e, q.recordRetransmission i p = (.error e, q)) ∨
    ((q.recordRetransmission i p).1 = .ok () ∧
      (q.recordRetransmission i p).2.numbers.Perm (p :: q.numbers)) := by
  unfold recordRetransmission
  cases hi : q.pending[i]? with
  | none => exact .inl ⟨_, rfl⟩
  | some entry =>
    dsimp only
    split
    · exact .inl ⟨_, rfl⟩
    · refine .inr ⟨rfl, flatMap_insert hi ?_⟩
      simp [← append_assoc, packetNumbers]

lemma removeGroupOrdered_pending (q : Queue) (i : Nat) (entry : PendingDatagram) :
    (q.removeGroupOrdered i entry).pending = q.pending.eraseIdx i := by
  unfold removeGroupOrdered
  dsimp only
  split <;> rfl

lemma Sound.forget_numbers (h : Sound q) (p n : Nat) :
    n ∈ (q.forgetPacketNumber p).2.numbers ↔ n ∈ q.numbers ∧ n ≠ p := by
  have hforgets := h.forgets p
  generalize q.forgetPacketNumber p = outcome at hforgets ⊢
  obtain ⟨found, q'⟩ := outcome
  dsimp only at hforgets ⊢
  -- The numbers before are those after and the forgotten one.
  have hperm : ∀ {l : List Nat}, q.numbers.Perm (p :: l) → (n ∈ l ↔ n ∈ q.numbers ∧ n ≠ p) := by
    intro l hperm
    have hnodup := hperm.nodup_iff.mp h.distinct
    rw [hperm.mem_iff, mem_cons]
    constructor
    · intro hn
      refine ⟨.inr hn, fun heq => ?_⟩
      exact (nodup_cons.mp hnodup).1 (heq ▸ hn)
    rintro ⟨heq | hn, hne⟩
    · exact absurd heq hne
    · exact hn
  cases hforgets with
  | unknown hget =>
    constructor
    · intro hn
      refine ⟨hn, fun heq => ?_⟩
      obtain ⟨entry, hent, hk⟩ := mem_flatMap.mp hn
      exact h.packets.get_eq_none.mp hget entry hent (heq ▸ hk)
    · exact fun hn => hn.1
  | group i entry hget hi hone =>
    obtain ⟨entry', hi', hp⟩ := h.owner hget
    rw [hi, Option.some.injEq] at hi'
    rw [← hi'] at hp
    have honly : entry.packetNumbers = [p] := by
      rw [packetCount_eq] at hone
      obtain ⟨m, hm⟩ := length_eq_one_iff.mp hone
      rw [hm, mem_singleton] at hp
      rw [hm, hp]
    refine hperm ?_
    unfold numbers
    rw [removeGroupOrdered_pending]
    have hflat := (erase_perm hi).flatMap_right packetNumbers
    rw [flatMap_cons, honly] at hflat
    exact hflat.symm
  | copy i old new hget hi hmany hp hnew _ hpend hsound =>
    refine hperm ?_
    unfold numbers
    rw [hpend]
    exact flatMap_remove hi hp

lemma acknowledge_numbers (q : Queue) (p : Nat) :
    (q.acknowledgePacketNumber p).2.numbers.Sublist q.numbers := by
  unfold acknowledgePacketNumber
  cases q.packetIndex.get p with
  | none => exact Sublist.refl _
  | some i =>
    dsimp only
    cases q.pending[i]? with
    | none => exact Sublist.refl _
    | some entry =>
      unfold numbers
      rw [removeGroupOrdered_pending]
      exact (eraseIdx_sublist _ _).flatMap _

lemma applyAck_numbers (q : Queue) (ack : AckFrame) :
    (q.applyAck ack).2.numbers.Sublist q.numbers := by
  rcases applyAck_pending q ack with hsame | hkept
  · rw [hsame]
  rw [hkept]
  unfold retainUnacknowledgedAck
  dsimp only
  split
  · exact Sublist.refl _
  · rw [removeStats_fold]
    exact filter_sublist.flatMap _

end Recovery.Queue

/-! ### What the accounts track -/

namespace SendAccounts

variable {P M : Type} {b b' : SendAccounts P M} {base : Nat}
  {sentOk queueOk sentOk' queueOk' : Nat → Prop}

/-- The tracker and the queue know no numbers but these, and retired ones lie below `base`. -/
structure Tracks (b : SendAccounts P M) (base : Nat) (sentOk queueOk : Nat → Prop) : Prop where
  kept : b.sent.Kept (varintMax + 1)
  retired : ∀ r ∈ b.sent.toSentPacketTracker.retired, r.stop < base
  sentNumbers : ∀ n ∈ b.sent.packets.map (·.packetNumber), sentOk n
  sound : b.recovery.Sound
  queueNumbers : ∀ n ∈ b.recovery.numbers, queueOk n

lemma Tracks.congr (h : Tracks b base sentOk queueOk) (hsent : b'.sent = b.sent)
    (hqueue : b'.recovery = b.recovery) : Tracks b' base sentOk queueOk :=
  ⟨by rw [hsent]; exact h.kept, by rw [hsent]; exact h.retired, by rw [hsent]; exact h.sentNumbers,
    by rw [hqueue]; exact h.sound, by rw [hqueue]; exact h.queueNumbers⟩

lemma Tracks.mono (h : Tracks b base sentOk queueOk) {base' : Nat} (hbase : base ≤ base')
    (hsent : ∀ n, sentOk n → sentOk' n) (hqueue : ∀ n, queueOk n → queueOk' n) :
    Tracks b base' sentOk' queueOk' :=
  ⟨h.kept, fun r hr => Nat.lt_of_lt_of_le (h.retired r hr) hbase,
    fun n hn => hsent n (h.sentNumbers n hn), h.sound, fun n hn => hqueue n (h.queueNumbers n hn)⟩

/-- All numbers are below the next one. -/
def Tracked (b : SendAccounts P M) (next : Nat) : Prop := Tracks b next (· < next) (· < next)

lemma Tracked.kept (h : Tracked b base) (hsmall : base ≤ varintMax + 1) : b.sent.Kept base :=
  Tracks.kept h |>.bound hsmall h.sentNumbers h.retired

lemma tracked_of_kept (h : b.sent.Kept base) (hsound : b.recovery.Sound)
    (hbelow : ∀ n ∈ b.recovery.numbers, n < base) : Tracked b base :=
  ⟨h.bound le_rfl (fun n hn => Nat.lt_of_lt_of_le (h.wf.below n hn) h.wf.small)
      (fun r hr => Nat.lt_of_lt_of_le (h.wf.nonempty r hr).2 h.wf.small),
    fun r hr => (h.wf.nonempty r hr).2, h.wf.below, hsound, hbelow⟩

lemma tracked_init (b : SendAccounts P M) (hsent : b.sent = {}) (hqueue : b.recovery = {}) :
    Tracked b 0 :=
  tracked_of_kept (by rw [hsent]; exact IndexedTracker.kept_init)
    (by rw [hqueue]; exact Recovery.Queue.initial_sound) (by rw [hqueue]; simp [Recovery.Queue.numbers])

/-! ### Adding a number -/

variable {record : SentPacket} {next bytes : Nat} {payload : Bytes}

/-- **A number above all others is recorded.** -/
theorem Tracks.recordSent (h : Tracks b base sentOk queueOk) (hbase : base ≤ record.packetNumber)
    (hnew : ∀ n, sentOk n → n < record.packetNumber) (hsmall : record.packetNumber ≤ varintMax) :
    (b.recordSent record).1 = .ok () ∧
      (b.recordSent record).2.sent.packets = b.sent.packets ++ [record.sending.packet] ∧
      Tracks (b.recordSent record).2 base (fun n => sentOk n ∨ n = record.packetNumber) queueOk := by
  have hbound : b.sent.Kept record.packetNumber :=
    h.kept.bound (Nat.le_succ_of_le hsmall) (fun n hn => hnew n (h.sentNumbers n hn))
      (fun r hr => Nat.lt_of_lt_of_le (h.retired r hr) hbase)
  obtain ⟨hok, hpkts, hkept⟩ := hbound.sent record.sending
    (b.indexRoom record.packetNumber) le_rfl hsmall
  refine ⟨hok, hpkts, ?_, ?_, ?_, h.sound, h.queueNumbers⟩
  · refine hkept.bound le_rfl (fun n hn => ?_) (fun r hr => ?_)
    · exact Nat.lt_of_lt_of_le (hkept.wf.below n hn) (Nat.succ_le_succ hsmall)
    · exact Nat.lt_of_lt_of_le (hkept.wf.nonempty r hr).2 (Nat.succ_le_succ hsmall)
  · intro r hr
    refine h.retired r ?_
    have hsame : (b.recordSent record).2.sent.toSentPacketTracker.retired
        = b.sent.toSentPacketTracker.retired := by
      show (b.sent.sent record.sending _).2.toSentPacketTracker.retired = _
      unfold IndexedTracker.sent
      dsimp only
      split <;> rfl
    rw [← hsame]
    exact hr
  intro n hn
  have happ : (b.recordSent record).2.sent.packets = b.sent.packets ++ [record.sending.packet] :=
    hpkts
  rw [happ, map_append, mem_append] at hn
  rcases hn with hold | hlast
  · exact .inl (h.sentNumbers n hold)
  · exact .inr (mem_singleton.mp hlast)

lemma Tracks.trackPacket (h : Tracks b base sentOk queueOk) (payload : Bytes)
    (hbase : base ≤ record.packetNumber) (hsent : ∀ n, sentOk n → n < record.packetNumber)
    (hsmall : record.packetNumber ≤ varintMax) :
    (∃ e, b.trackPacket record payload = (.error e, b)) ∨
    ((∃ group, (b.trackPacket record payload).1 = .ok group) ∧
      Tracks (b.trackPacket record payload).2 base (fun n => sentOk n ∨ n = record.packetNumber)
        (fun n => queueOk n ∨ (record.ackEliciting = true ∧ n = record.packetNumber))) := by
  unfold SendAccounts.trackPacket
  by_cases hack : record.ackEliciting = true
  · rw [if_pos hack]
    rcases Recovery.Queue.trackSent_cases b.recovery record.packetNumber payload with
      ⟨e, herr⟩ | ⟨-, -, -, hok, hpend, -⟩
    · simp [herr]
    have hsound := h.sound.trackSent record.packetNumber payload
    rcases htrack : b.recovery.trackSent record.packetNumber payload with ⟨result, recovery⟩
    rw [htrack] at hok hpend hsound
    dsimp only at hok hpend hsound
    rw [hok]
    dsimp only
    have hq : Tracks { b with recovery := recovery } base sentOk
        (fun n => queueOk n ∨ (record.ackEliciting = true ∧ n = record.packetNumber)) := by
      refine ⟨h.kept, h.retired, h.sentNumbers, hsound, fun n hn => ?_⟩
      have hn' : n ∈ recovery.pending.flatMap Recovery.PendingDatagram.packetNumbers := hn
      rw [hpend, flatMap_append, mem_append] at hn'
      rcases hn' with hold | hlast
      · exact .inl (h.queueNumbers n hold)
      · exact .inr ⟨hack, mem_singleton.mp hlast⟩
    obtain ⟨hrecord, -, htracks⟩ := hq.recordSent hbase hsent hsmall
    rcases hsentRec : ({ b with recovery := recovery } : SendAccounts P M).recordSent record with
      ⟨recorded, b₁⟩
    rw [hsentRec] at hrecord htracks
    dsimp only at hrecord htracks ⊢
    rw [hrecord]
    exact .inr ⟨⟨_, rfl⟩, htracks⟩
  rw [if_neg hack]
  obtain ⟨hrecord, -, htracks⟩ := h.recordSent hbase hsent hsmall
  rcases hsentRec : b.recordSent record with ⟨recorded, b₁⟩
  rw [hsentRec] at hrecord htracks
  dsimp only at hrecord htracks ⊢
  rw [hrecord]
  exact .inr ⟨⟨_, rfl⟩, htracks.mono le_rfl (fun _ hn => hn) (fun _ hn => .inl hn)⟩

lemma Tracked.trackPacket_error (h : b.Tracked next) {e : Error}
    (hnum : record.packetNumber = next) (hsmall : next ≤ varintMax)
    (htrack : b.trackPacket record payload = (.error e, b')) : b' = b := by
  rcases Tracks.trackPacket h payload (Nat.le_of_eq hnum.symm)
    (fun n hn => by rw [hnum]; exact hn) (by rw [hnum]; exact hsmall) with
    ⟨e', hsame⟩ | ⟨⟨group, hok⟩, -⟩
  · rw [hsame] at htrack
    cases htrack
    rfl
  · simp [htrack] at hok

lemma Tracked.trackPacket_next (h : b.Tracked next) {group : Option Nat}
    (hnum : record.packetNumber = next) (hsmall : next ≤ varintMax)
    (htrack : b.trackPacket record payload = (.ok group, b')) : b'.Tracked (next + 1) := by
  rcases Tracks.trackPacket h payload (Nat.le_of_eq hnum.symm)
    (fun n hn => by rw [hnum]; exact hn) (by rw [hnum]; exact hsmall) with
    ⟨e, herr⟩ | ⟨-, hadded⟩
  · simp [herr] at htrack
  rw [htrack] at hadded
  refine hadded.mono (Nat.le_succ _) ?_ ?_
  · omega
  · omega

/-- What a tracking call of the send paths may do to the numbers. -/
def TracksOne {α : Type} (b b' : SendAccounts P M) (result : Except Error α)
    (record : SentPacket) : Prop :=
  ∀ {base : Nat} {sentOk queueOk : Nat → Prop}, Tracks b base sentOk queueOk →
    base ≤ record.packetNumber → (∀ n, sentOk n → n < record.packetNumber) →
    record.packetNumber ≤ varintMax → ((∃ e, result = .error e) ∧ Tracks b' base sentOk queueOk) ∨
    ((∃ r, result = .ok r) ∧
      Tracks b' base (fun n => sentOk n ∨ n = record.packetNumber)
        (fun n => queueOk n ∨ (record.ackEliciting = true ∧ n = record.packetNumber)))

lemma reserveCongestion_keeps (h : b.reserveCongestion bytes = .ok b') :
    b'.sent = b.sent ∧ b'.recovery = b.recovery := by
  unfold reserveCongestion at h
  split at h
  · cases h
    exact ⟨rfl, rfl⟩
  split at h
  · cases h
  · cases h
    exact ⟨rfl, rfl⟩

lemma track_tracksOne (b : SendAccounts P M) (record : SentPacket) (payload : Bytes) :
    TracksOne b (b.track record payload).2 (b.track record payload).1 record := by
  intro base sentOk queueOk h hbase hnew hsmall
  unfold track
  dsimp only
  cases hres : b.reserveCongestion (if record.inFlight then payload.length else 0) with
  | error e => exact .inl ⟨⟨e, rfl⟩, h⟩
  | ok b₁ =>
    dsimp only
    obtain ⟨hsent, hqueue⟩ := reserveCongestion_keeps hres
    rcases (h.congr hsent hqueue).trackPacket payload hbase hnew hsmall with
      ⟨e, herr⟩ | ⟨⟨group, hok⟩, htracks⟩
    · rw [herr]
      exact .inl ⟨⟨e, rfl⟩, h.congr hsent hqueue⟩
    rcases htrack : b₁.trackPacket record payload with ⟨result, b₂⟩
    rw [htrack] at hok htracks
    dsimp only at hok htracks
    rw [hok]
    exact .inr ⟨⟨group, rfl⟩, htracks⟩

lemma trackBatched_tracksOne (b : SendAccounts P M) (record : SentPacket) (payload : Bytes) :
    TracksOne b (b.trackBatched record payload).2 (b.trackBatched record payload).1 record := by
  intro base sentOk queueOk h hbase hnew hsmall
  unfold trackBatched
  rcases h.trackPacket payload hbase hnew hsmall with
    ⟨e, herr⟩ | ⟨⟨group, hok⟩, htracks⟩
  · rw [herr]
    exact .inl ⟨⟨e, rfl⟩, h⟩
  rcases htrack : b.trackPacket record payload with ⟨result, b₁⟩
  rw [htrack] at hok htracks
  dsimp only at hok htracks
  rw [hok]
  exact .inr ⟨⟨(), rfl⟩, htracks⟩

lemma chargeRetransmission_keeps {mode : RetransmitMode}
    (h : b.chargeRetransmission mode bytes = .ok b') :
    b'.sent = b.sent ∧ b'.recovery = b.recovery := by
  cases mode with
  | congestionControlled => exact reserveCongestion_keeps h
  | ptoProbe =>
    cases h
    exact ⟨rfl, rfl⟩

lemma trackRetransmission_tracksOne (b : SendAccounts P M) (mode : RetransmitMode)
    (candidate : Candidate) (hack : record.ackEliciting = true) :
    TracksOne b (b.trackRetransmission mode candidate record).2
      (b.trackRetransmission mode candidate record).1 record := by
  intro base sentOk queueOk h hbase hnew hsmall
  unfold trackRetransmission
  cases hcharge : b.chargeRetransmission mode candidate.payload.length with
  | error e => exact .inl ⟨⟨e, rfl⟩, h⟩
  | ok b₁ =>
    obtain ⟨hsent, hqueue⟩ := chargeRetransmission_keeps hcharge
    have h₁ := h.congr hsent hqueue
    dsimp only
    rcases Recovery.Queue.recordRetransmission_cases b₁.recovery candidate.groupIndex
      record.packetNumber with ⟨e, herr⟩ | ⟨hok, hperm⟩
    · rw [herr]
      exact .inl ⟨⟨e, rfl⟩, h₁.congr rfl rfl⟩
    have hsound := h₁.sound.recordRetransmission candidate.groupIndex record.packetNumber
    rcases hrec : b₁.recovery.recordRetransmission candidate.groupIndex record.packetNumber with
      ⟨result, recovery⟩
    rw [hrec] at hok hperm hsound
    dsimp only at hok hperm hsound
    rw [hok]
    dsimp only
    have hq : Tracks { b₁ with recovery := recovery } base sentOk
        (fun n => queueOk n ∨ (record.ackEliciting = true ∧ n = record.packetNumber)) := by
      refine ⟨h₁.kept, h₁.retired, h₁.sentNumbers, hsound, fun n hn => ?_⟩
      rcases mem_cons.mp (hperm.mem_iff.mp hn) with heq | hold
      · exact .inr ⟨hack, heq⟩
      · exact .inl (h₁.queueNumbers n hold)
    obtain ⟨hrecord, -, htracks⟩ := hq.recordSent hbase hnew hsmall
    rcases hsentRec : ({ b₁ with recovery := recovery } : SendAccounts P M).recordSent record with
      ⟨recorded, b₂⟩
    rw [hsentRec] at hrecord htracks
    dsimp only at hrecord htracks ⊢
    rw [hrecord]
    exact .inr ⟨⟨(), rfl⟩, htracks⟩

/-! ### Taking a number out -/

lemma Tracks.forgetSent (h : Tracks b base sentOk queueOk) (n : Nat) :
    Tracks { b with sent := (b.sent.forget n).2 } base (fun m => sentOk m ∧ m ≠ n) queueOk := by
  have hnodup : (b.sent.packets.map (·.packetNumber)).Nodup :=
    h.kept.wf.ascending.imp (fun hlt => Nat.ne_of_lt hlt)
  have hret : ∀ r ∈ (b.sent.forget n).2.toSentPacketTracker.retired, r.stop < base := by
    obtain ⟨packets, first, index, latest, hrest⟩ := IndexedTracker.forget_rest b.sent n
    rw [hrest]
    exact h.retired
  rcases h.kept.forget n with hnone | ⟨-, hkept, index, hidx, herased⟩
  · have hmissing := h.kept.forget_missing (congrArg Prod.fst hnone)
    rw [hnone] at hret ⊢
    exact ⟨h.kept, hret, fun m hm => ⟨h.sentNumbers m hm, fun heq => hmissing (heq ▸ hm)⟩,
      h.sound, h.queueNumbers⟩
  refine ⟨hkept, hret, fun m hm => ?_, h.sound, h.queueNumbers⟩
  have hpkts : (b.sent.forget n).2.packets = b.sent.packets.eraseIdx index := herased.packets
  have hm' : m ∈ ((b.sent.forget n).2.packets).map (·.packetNumber) := hm
  rw [hpkts, ← List.eraseIdx_map] at hm'
  obtain ⟨j, hj, hget⟩ := List.mem_eraseIdx_iff_getElem?.mp hm'
  refine ⟨h.sentNumbers m (List.mem_of_getElem? hget), fun heq => hj ?_⟩
  rw [heq] at hget
  obtain ⟨hlt₁, heq₁⟩ := List.getElem_of_getElem? hget
  obtain ⟨hlt₂, heq₂⟩ := List.getElem_of_getElem? hidx
  exact (List.Nodup.getElem_inj_iff hnodup).mp (heq₁.trans heq₂.symm)

lemma Tracks.forgetPacketNumber (h : Tracks b base sentOk queueOk) (n : Nat) :
    Tracks { b with recovery := (b.recovery.forgetPacketNumber n).2 } base sentOk
      (fun m => queueOk m ∧ m ≠ n) :=
  ⟨h.kept, h.retired, h.sentNumbers, h.sound.forgetPacketNumber n, fun m hm => by
    obtain ⟨hold, hne⟩ := (h.sound.forget_numbers n m).mp hm
    exact ⟨h.queueNumbers m hold, hne⟩⟩

lemma Tracks.untrack (h : Tracks b base sentOk queueOk) (record : SentPacket) :
    Tracks (b.untrack record) base (fun m => sentOk m ∧ m ≠ record.packetNumber)
      (fun m => queueOk m ∧ (record.ackEliciting = true → m ≠ record.packetNumber)) := by
  have hsent := h.forgetSent record.packetNumber
  unfold SendAccounts.untrack
  dsimp only
  by_cases hack : record.ackEliciting = true
  · rw [if_pos hack]
    have hboth := hsent.forgetPacketNumber record.packetNumber
    refine Tracks.congr (hboth.mono le_rfl (fun _ hn => hn) ?_) rfl rfl
    exact fun _ hn => ⟨hn.1, fun _ => hn.2⟩
  rw [if_neg hack]
  refine Tracks.congr (hsent.mono le_rfl (fun _ hn => hn) ?_) rfl rfl
  exact fun _ hn => ⟨hn, fun hc => absurd hc hack⟩

lemma Tracks.untrackBatched (h : Tracks b base sentOk queueOk) (record : SentPacket) :
    Tracks (b.untrackBatched record) base (fun m => sentOk m ∧ m ≠ record.packetNumber)
      (fun m => queueOk m ∧ m ≠ record.packetNumber) :=
  ((h.forgetSent record.packetNumber).forgetPacketNumber record.packetNumber).congr rfl rfl

/-! ### Calls that track nothing -/

/-- The tracker and the queue are left alone. -/
structure Calm (b b' : SendAccounts P M) : Prop where
  sent : b'.sent = b.sent
  recovery : b'.recovery = b.recovery

lemma Calm.refl (b : SendAccounts P M) : Calm b b := ⟨rfl, rfl⟩

lemma Calm.tracks (h : Calm b b') (ht : Tracks b base sentOk queueOk) :
    Tracks b' base sentOk queueOk := ht.congr h.sent h.recovery

lemma reserveFlow_calm (b : SendAccounts P M) (frames : List Frame) :
    Calm b (b.reserveFlow frames).2 := by
  unfold reserveFlow
  split
  · exact Calm.refl b
  split
  · exact ⟨rfl, rfl⟩
  dsimp only
  split
  · exact ⟨rfl, rfl⟩
  split
  · exact ⟨rfl, rfl⟩
  · split <;> exact ⟨rfl, rfl⟩

lemma noteBlockedSent_calm (b : SendAccounts P M) (control : Frame) :
    Calm b (b.noteBlockedSent control) := by
  unfold noteBlockedSent
  split
  · exact ⟨rfl, rfl⟩
  · split <;> exact ⟨rfl, rfl⟩
  · exact ⟨rfl, rfl⟩
  · exact ⟨rfl, rfl⟩
  · exact Calm.refl b

lemma notePacketSent_calm (pace : Pacing P M) (b : SendAccounts P M) (packet : ShortPacket)
    (nowNs : Nat) (pacePacket : Bool) : Calm b (b.notePacketSent pace packet nowNs pacePacket) := by
  unfold notePacketSent
  split <;> exact ⟨rfl, rfl⟩

lemma reserveBatch_calm (b : SendAccounts P M) (packets : List PreparedPacket) :
    Calm b (b.reserveBatch packets).2 := by
  unfold reserveBatch
  split
  · exact Calm.refl b
  split
  · exact ⟨rfl, rfl⟩
  dsimp only
  split
  · rename_i hcongestion
    obtain ⟨hsent, hqueue⟩ := reserveCongestion_keeps hcongestion
    exact ⟨hsent, hqueue⟩
  · exact ⟨rfl, rfl⟩
  · exact ⟨rfl, rfl⟩
  · exact ⟨rfl, rfl⟩

end SendAccounts

end Netz.Quic
