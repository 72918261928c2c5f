/-
The next packet number is a new one.

Over the accounts of a connection every send path leaves the tracker of sent packets and the
retransmission queue with numbers below the next packet number only (`Held`): a path that
fails has forgotten the packet it had tracked, and a batch has forgotten every packet the
socket did not take.
-/
import Netz.Proofs.Send
import Netz.Proofs.SendTracked

namespace Netz.Quic.Sender

open SendAccounts

variable {P M : Type} {s t : Sender (SendAccounts P M)} (pace : Pacing P M)

/-- The tracker and the queue know only numbers below the next one. -/
structure Held (s : Sender (SendAccounts P M)) : Prop where
  tracked : s.books.Tracked s.nextPacketNumber
  small : s.nextPacketNumber ≤ varintMax + 1

/-- Neither the numbers that are tracked nor the next one change. -/
structure Idle (s t : Sender (SendAccounts P M)) : Prop where
  calm : Calm s.books t.books
  next : t.nextPacketNumber = s.nextPacketNumber

lemma Idle.refl (s : Sender (SendAccounts P M)) : Idle s s := ⟨Calm.refl _, rfl⟩

lemma Idle.trans {u : Sender (SendAccounts P M)} (h : Idle s t) (h' : Idle t u) : Idle s u :=
  ⟨⟨h'.calm.sent.trans h.calm.sent, h'.calm.recovery.trans h.calm.recovery⟩, h'.next.trans h.next⟩

lemma Idle.held (h : Idle s t) (hs : Held s) : Held t := by
  refine ⟨?_, by rw [h.next]; exact hs.small⟩
  rw [h.next]
  exact h.calm.tracks hs.tracked

lemma Calm.idle {b : SendAccounts P M} (h : Calm s.books b) : Idle s { s with books := b } :=
  ⟨h, rfl⟩

/-! ### Below the send paths -/

lemma prepareAeadForEncryption_idle (s : Sender (SendAccounts P M)) (packetNumber : Nat) :
    Idle s (s.prepareAeadForEncryption packetNumber).2 := by
  unfold prepareAeadForEncryption
  split
  · exact Idle.refl s
  · split <;> exact ⟨⟨rfl, rfl⟩, rfl⟩

lemma reserveAntiAmplification_idle {bytes : Nat} (h : s.reserveAntiAmplification bytes = .ok t) :
    Idle s t := by
  unfold reserveAntiAmplification at h
  split at h
  · cases h
    exact Idle.refl s
  split at h
  · cases h
  · cases h
    exact ⟨⟨rfl, rfl⟩, rfl⟩

lemma releaseAntiAmplification_idle (s : Sender (SendAccounts P M)) (bytes : Nat) :
    Idle s (s.releaseAntiAmplification bytes) := by
  unfold releaseAntiAmplification
  split
  · exact Idle.refl s
  · exact ⟨⟨rfl, rfl⟩, rfl⟩

lemma protectAndSend_idle (s : Sender (SendAccounts P M)) (packetNumber : Nat) (payload : Bytes)
    (packetNumberLen : Nat) (a : Attempt) (pacePacket : Bool) :
    Idle s (s.protectAndSend (SendAccounts.books pace) packetNumber payload packetNumberLen a
      pacePacket).2 := by
  unfold protectAndSend
  cases a.delivery with
  | outOfMemory =>
    have hstep : Idle s { s with fixedBitIndex := s.fixedBitIndex + 1 } := ⟨⟨rfl, rfl⟩, rfl⟩
    exact hstep.trans (releaseAntiAmplification_idle _ payload.length)
  | refused =>
    have hstep : Idle s (s.sealShortPacket packetNumber packetNumberLen payload) :=
      ⟨⟨rfl, rfl⟩, rfl⟩
    exact hstep.trans (releaseAntiAmplification_idle _ payload.length)
  | accepted => exact ⟨notePacketSent_calm pace s.books _ _ _, rfl⟩

lemma sendPayloadPacket_idle (s : Sender (SendAccounts P M)) (packetNumber : Nat) (payload : Bytes)
    (packetNumberLen : Nat) (a : Attempt) (pacePacket : Bool) :
    Idle s (s.sendPayloadPacketWithPacketNumberLenAt (SendAccounts.books pace) packetNumber payload
      packetNumberLen a pacePacket).2 := by
  unfold sendPayloadPacketWithPacketNumberLenAt
  split
  · exact Idle.refl s
  split
  · exact Idle.refl s
  have hkeys := prepareAeadForEncryption_idle s packetNumber
  rcases hprep : s.prepareAeadForEncryption packetNumber with ⟨result, s₁⟩
  rw [hprep] at hkeys
  cases result with
  | error e => exact hkeys
  | ok _ =>
    dsimp only
    cases hres : s₁.reserveAntiAmplification payload.length with
    | error e => exact hkeys
    | ok s₂ =>
      exact hkeys.trans ((reserveAntiAmplification_idle hres).trans
        (protectAndSend_idle pace s₂ packetNumber payload packetNumberLen a pacePacket))

/-! ### One packet -/

/-- **A packet that was not sent is not tracked either, and one that was uses up its number.** -/
theorem trackAndSend_held (hs : Held s)
    {track : SendAccounts P M → Except Error (Option Nat) × SendAccounts P M} {record : SentPacket}
    (htrack : TracksOne s.books (track s.books).2 (track s.books).1 record)
    (hnum : record.packetNumber = s.nextPacketNumber) (hmax : s.nextPacketNumber ≤ varintMax)
    (payload : Bytes) (packetNumberLen : Nat) (a : Attempt) (pacePacket : Bool) :
    Held (s.trackAndSend (SendAccounts.books pace) track record payload packetNumberLen a
      pacePacket).2 := by
  have hone := htrack hs.tracked (Nat.le_of_eq hnum.symm)
    (fun n hn => by rw [hnum]; exact hn) (by rw [hnum]; exact hmax)
  unfold trackAndSend
  rcases htracked : track s.books with ⟨result, b⟩
  rw [htracked] at hone
  cases result with
  | error e =>
    rcases hone with ⟨-, hsame⟩ | ⟨⟨_, hok⟩, -⟩
    · exact ⟨hsame, hs.small⟩
    · cases hok
  | ok groupId =>
    rcases hone with ⟨⟨e, herr⟩, -⟩ | ⟨-, hadded⟩
    · cases herr
    dsimp only at hadded ⊢
    have hidle := sendPayloadPacket_idle pace { s with books := b } s.nextPacketNumber payload
      packetNumberLen a pacePacket
    rcases hsend : ({ s with books := b } : Sender (SendAccounts P M)
      ).sendPayloadPacketWithPacketNumberLenAt (SendAccounts.books pace) s.nextPacketNumber payload
      packetNumberLen a pacePacket with ⟨result, u⟩
    rw [hsend] at hidle
    have hu := hidle.calm.tracks hadded
    have hnext : u.nextPacketNumber = s.nextPacketNumber := hidle.next
    cases result with
    | error e =>
      refine ⟨?_, by show u.nextPacketNumber ≤ _; rw [hnext]; exact hs.small⟩
      rw [hnext]
      refine (hu.untrack record).mono le_rfl ?_ ?_
      · omega
      rintro n ⟨hold | ⟨hack, heq⟩, hne⟩
      · exact hold
      · exact absurd heq (hne hack)
    | ok _ =>
      refine ⟨?_, by show u.nextPacketNumber + 1 ≤ _; rw [hnext]; omega⟩
      show Tracks u.books (u.nextPacketNumber + 1) (· < u.nextPacketNumber + 1)
        (· < u.nextPacketNumber + 1)
      rw [hnext]
      refine hu.mono (Nat.le_succ _) ?_ ?_
      · omega
      · omega

lemma handshakeDoneTracked_idle (s : Sender (SendAccounts P M)) (frames : List Frame)
    (groupId : Option Nat) : Idle s (s.handshakeDoneTracked frames groupId) := by
  unfold handshakeDoneTracked
  split
  · exact Idle.refl s
  split
  · exact ⟨⟨rfl, rfl⟩, rfl⟩
  · exact Idle.refl s

lemma trackCandidate_tracksOne (mode : RetransmitMode) (candidate : Candidate)
    {record : SentPacket} (hack : record.ackEliciting = true) (b : SendAccounts P M) :
    TracksOne b (trackCandidate (SendAccounts.books pace) mode candidate record b).2
      (trackCandidate (SendAccounts.books pace) mode candidate record b).1 record := by
  intro base sentOk queueOk ht hbase hnew hsmall
  have hone := trackRetransmission_tracksOne b mode candidate hack ht hbase hnew hsmall
  unfold trackCandidate
  rcases htrack : (SendAccounts.books pace).trackRetransmission b mode candidate record with
    ⟨result, b₁⟩
  have hsame : b.trackRetransmission mode candidate record = (result, b₁) := htrack
  rw [hsame] at hone
  cases result with
  | error e =>
    rcases hone with ⟨-, hkeep⟩ | ⟨⟨_, hok⟩, -⟩
    · exact .inl ⟨⟨e, rfl⟩, hkeep⟩
    · cases hok
  | ok _ =>
    rcases hone with ⟨⟨e, herr⟩, -⟩ | ⟨-, hadded⟩
    · cases herr
    · exact .inr ⟨⟨none, rfl⟩, hadded⟩

/-- **Every single-packet path keeps the next number a new one.** -/
theorem held_walk : Walk (SendAccounts.books pace) fun s t _ _ => Held s → Held t where
  stay _ _ _ hs := hs
  clock h := h
  reserved frames h hs := h ((Calm.idle (reserveFlow_calm _ frames)).held hs)
  noted hnote h hs := by
    refine (Calm.idle ?_).held (h hs)
    cases hnote with
    | blocked control => exact noteBlockedSent_calm _ control
    | streams | release | probe => exact ⟨rfl, rfl⟩
  handshakeDone frames groupId h hs := (handshakeDoneTracked_idle _ frames groupId).held (h hs)
  send htracking hnum hsmall payload packetNumberLen a pacePacket hs := by
    refine trackAndSend_held pace hs ?_ hnum hsmall payload packetNumberLen a pacePacket
    cases htracking with
    | first => exact track_tracksOne _ _ _
    | again mode candidate _ hack => exact trackCandidate_tracksOne pace mode candidate hack _

end Netz.Quic.Sender
