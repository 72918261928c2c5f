/-
What the frames of an accepted packet do to the accounts.

A STREAM or RESET_STREAM frame goes into the log.  Every other frame leaves the receiving
side of the stream table alone, whatever it does elsewhere and whether or not it succeeds.
-/
import Netz.Proofs.Charges
import Netz.Quic.Connection

namespace Netz.Quic

open Lib StreamTable.Kept

namespace Connection

variable {M : Type} {c c' : Connection M} (est : Estimators M)

/-! ### Packets -/

/-- The data frame of a frame that is one. -/
def dataFrame : Frame → Option DataFrame
  | .stream frame => some (.stream frame)
  | .resetStream frame => some (.reset frame)
  | _ => none

/-- The data frames of a list of frames, newest first. -/
def dataFrames (frames : List (Frame × SendOutcome)) : List DataFrame :=
  (frames.filterMap (fun f => dataFrame f.1)).reverse

lemma sendTrackedFrames_streams (c : Connection M) (outcome : SendOutcome) :
    (c.sendTrackedFrames outcome).2.streams = c.streams := by
  unfold sendTrackedFrames
  by_cases hmax : maxPacketNumber < c.nextPacketNumber
  · rw [if_pos hmax]
  rw [if_neg hmax]
  cases outcome with
  | failed e tracked =>
    cases tracked with
    | false => rfl
    | true =>
      cases c.recovery.trackSent c.nextPacketNumber with
      | error | ok => rfl
  | sent bytes sentTimeNs =>
    unfold trackNext
    cases c.recovery.trackSent c.nextPacketNumber with
    | error e => rfl
    | ok pair =>
      simp only
      cases c.sent.sentInFlightAtWithMetadata
        { packetNumber := c.nextPacketNumber, bytes := bytes, sentTimeNs := sentTimeNs } with
      | error | ok => rfl

lemma settleAck_streams (c : Connection M) (ack : AckFrame) (nowNs : Option Nat)
    (acked : AckResult) (sent : SentPacketTracker) :
    (c.settleAck est ack nowNs acked sent).streams = c.streams := by
  unfold settleAck
  cases nowNs <;> rfl

lemma receiveAck_streams (c : Connection M) (ack : AckFrame) (nowNs : Option Nat) :
    (c.receiveAck est ack nowNs).2.streams = c.streams := by
  unfold receiveAck
  cases hrtt : c.updateRttFromAckAt est ack nowNs with
  | error e => rfl
  | ok c₁ =>
    have hsame : c₁.streams = c.streams := by
      cases nowNs with
      | none =>
        unfold updateRttFromAckAt at hrtt
        rw [Except.ok.injEq] at hrtt
        rw [← hrtt]
      | some now =>
        unfold updateRttFromAckAt updateRttFromAck at hrtt
        simp only at hrtt
        cases hsamp : c.sent.ackRttSample ack now c.frameConfig.peerAckDelayExponent with
        | error e => rw [hsamp] at hrtt; simp at hrtt
        | ok sample =>
          rw [hsamp] at hrtt
          cases sample with
          | none =>
            simp only [Except.ok.injEq] at hrtt
            rw [← hrtt]
          | some sample =>
            simp only [Except.ok.injEq] at hrtt
            rw [← hrtt]
    simp only
    cases applyAck c₁.sent ack with
    | error e => exact hsame
    | ok pair =>
      simp only
      have hsettled := settleAck_streams est c₁ ack nowNs pair.1 pair.2
      cases (c₁.settleAck est ack nowNs pair.1 pair.2).recovery.applyAck ack with
      | error | ok => exact hsettled.trans hsame

lemma sendStreamEntry_kept (t : StreamTable) (id : Nat) :
    StreamTable.Kept t (t.sendStreamEntry id).2 := by
  unfold StreamTable.sendStreamEntry
  cases t.findSendStreamEntry id with
  | some entry => exact refl t
  | none =>
    by_cases hlim : streamInitiatedByLocal t.config.localEndpoint id = true ∧
        t.peerMaxStreams (streamDirection id) < streamCountForId id
    · rw [if_pos hlim]
      exact refl t
    · rw [if_neg hlim]
      exact of_eq rfl rfl le_rfl

lemma sendResetStream_kept (c : Connection M) (id code size : Nat) (outcome : SendOutcome) :
    StreamTable.Kept c.streams (c.sendResetStream id code size outcome).2.streams := by
  have hopen := sendStreamEntry_kept c.streams id
  unfold sendResetStream
  generalize c.streams.sendStreamEntry id = run at hopen
  obtain ⟨result, streams⟩ := run
  cases result with
  | error e => exact hopen
  | ok entry =>
    simp only
    cases entry.resetSent with
    | some existing =>
      simp only
      split
      · exact hopen
      · exact hopen
    | none =>
      have hsend := sendTrackedFrames_streams { c with streams := streams } outcome
      generalize { c with streams := streams }.sendTrackedFrames outcome = sent at hsend
      obtain ⟨result, c₁⟩ := sent
      simp only at hsend
      cases result with
      | error e => simp [hsend, hopen]
      | ok u =>
        simp only
        rw [hsend]
        exact hopen.trans (of_eq rfl rfl le_rfl)

lemma receiveStopSending_kept (c : Connection M) (stop : StopSendingFrame) (outcome : SendOutcome) :
    StreamTable.Kept c.streams (c.receiveStopSending stop outcome).2.streams := by
  have hopen := sendStreamEntry_kept c.streams stop.streamId
  unfold receiveStopSending
  by_cases hmax : maxPacketNumber < c.nextPacketNumber
  · rw [if_pos hmax]
    exact refl _
  rw [if_neg hmax]
  generalize c.streams.sendStreamEntry stop.streamId = run at hopen
  obtain ⟨result, streams⟩ := run
  cases result with
  | error e => exact hopen
  | ok entry =>
    have hput : StreamTable.Kept c.streams
        (streams.putSendStreamEntry { entry with stopped := some stop.applicationErrorCode }) :=
      hopen.trans (of_eq rfl rfl le_rfl)
    simp only
    by_cases hreset : entry.resetSent = none
    · rw [if_pos hreset]
      refine hput.trans ?_
      exact sendResetStream_kept { c with
        streams := streams.putSendStreamEntry
          { entry with stopped := some stop.applicationErrorCode } } _ _ _ outcome
    · simp [hreset, hput]

variable {nowNs : Option Nat} {destination : Option Bytes} {outcome : SendOutcome} {frame : Frame}
  {log : List DataFrame}

lemma applyFrame_kept (hother : dataFrame frame = none) :
    StreamTable.Kept c.streams (applyFrame est nowNs destination c outcome frame).2.streams := by
  have hsame : ∀ {streams : StreamTable}, streams = c.streams → StreamTable.Kept c.streams streams := by
    intro streams heq
    rw [heq]
    exact refl _
  cases frame with
  | stream | resetStream => simp [dataFrame] at hother
  | ack ack => exact hsame (receiveAck_streams est c ack nowNs)
  | stopSending stop => exact receiveStopSending_kept c stop outcome
  | maxStreamData id maximum =>
    have hopen := sendStreamEntry_kept c.streams id
    unfold applyFrame receiveMaxStreamData
    simp only
    generalize c.streams.sendStreamEntry id = run at hopen
    obtain ⟨result, streams⟩ := run
    cases result with
    | error e => exact hopen
    | ok entry => exact hopen.trans (of_eq rfl rfl le_rfl)
  | maxStreamsBidi maximum =>
    unfold applyFrame receiveMaxStreams
    simp only
    split
    · exact refl _
    · exact of_eq rfl rfl le_rfl
  | maxStreamsUni maximum =>
    unfold applyFrame receiveMaxStreams
    simp only
    split
    · exact refl _
    · exact of_eq rfl rfl le_rfl
  | streamsBlockedBidi maximum =>
    unfold applyFrame receiveStreamsBlocked
    simp only
    split
    · exact refl _
    split
    · exact hsame (sendTrackedFrames_streams c outcome)
    · exact refl _
  | streamsBlockedUni maximum =>
    unfold applyFrame receiveStreamsBlocked
    simp only
    split
    · exact refl _
    split
    · exact hsame (sendTrackedFrames_streams c outcome)
    · exact refl _
  | newToken token =>
    unfold applyFrame receiveNewToken
    simp only
    split
    · exact refl _
    · split <;> exact refl _
  | datagram data lengthPresent =>
    unfold applyFrame receiveDatagramFrame
    simp only
    split
    · exact refl _
    split
    · exact refl _
    · split <;> exact refl _
  | ackFrequency frame =>
    unfold applyFrame receiveAckFrequency
    simp only
    split
    · exact refl _
    · split <;> exact refl _
  | handshakeDone =>
    unfold applyFrame
    simp only
    split <;> exact refl _
  | pathResponse data =>
    unfold applyFrame
    simp only
    split <;> exact refl _
  | connectionClose errorCode frameType reasonPhrase =>
    unfold applyFrame setCloseInfo
    simp only
    split
    · split <;> exact refl _
    · exact refl _
  | applicationClose errorCode reasonPhrase =>
    unfold applyFrame setCloseInfo
    simp only
    split
    · split <;> exact refl _
    · exact refl _
  | padding | ping | crypto | maxData | dataBlocked | streamDataBlocked | newConnectionId
  | retireConnectionId | pathChallenge | immediateAck => exact refl _

lemma applyFrame_accounts (h : StreamTable.Accounts log c.streams)
    (hok : applyFrame est nowNs destination c outcome frame = (.ok (), c')) :
    StreamTable.Accounts ((dataFrame frame).toList ++ log) c'.streams := by
  cases hdata : dataFrame frame with
  | none =>
    have hkept : StreamTable.Kept c.streams
        (applyFrame est nowNs destination c outcome frame).2.streams := applyFrame_kept est hdata
    rw [hok] at hkept
    exact h.kept hkept
  | some data =>
    cases frame with
    | stream frame =>
      rw [← hdata]
      unfold applyFrame at hok
      simp only [Prod.mk.injEq] at hok
      rw [← hok.2]
      exact h.receiveStream (Prod.ext hok.1 rfl)
    | resetStream frame =>
      rw [← hdata]
      unfold applyFrame at hok
      simp only [Prod.mk.injEq] at hok
      rw [← hok.2]
      exact h.receiveResetStream (Prod.ext hok.1 rfl)
    | _ => simp [dataFrame] at hdata

lemma applyFrames_accounts :
    ∀ (frames : List (Frame × SendOutcome)) (c : Connection M) (log : List DataFrame),
      StreamTable.Accounts log c.streams →
      applyFrames est nowNs destination c frames = (.ok (), c') →
      StreamTable.Accounts (dataFrames frames ++ log) c'.streams := by
  intro frames
  induction frames with
  | nil =>
    intro c log h hok
    unfold applyFrames at hok
    simp only [Prod.mk.injEq, true_and] at hok
    rw [← hok]
    exact h
  | cons f rest ih =>
    intro c log h hok
    obtain ⟨frame, outcome⟩ := f
    unfold applyFrames at hok
    cases hone : applyFrame est nowNs destination c outcome frame with
    | mk result c₁ =>
      rw [hone] at hok
      cases result with
      | error e => simp at hok
      | ok u =>
        have hrest := ih c₁ _ (applyFrame_accounts est h hone) hok
        have hcons : dataFrames ((frame, outcome) :: rest) ++ log
            = dataFrames rest ++ ((dataFrame frame).toList ++ log) := by
          unfold dataFrames
          cases hd : dataFrame frame with
          | none | some => simp [hd]
        rw [hcons]
        exact hrest

lemma packet_accounts {packet : Packet} (h : StreamTable.Accounts log c.streams)
    (hok : (c.applyReceivedFramesForDestination est packet).1 = .ok ()) :
    StreamTable.Accounts (dataFrames packet.frames ++ log)
      (c.applyReceivedFramesForDestination est packet).2.streams := by
  unfold applyReceivedFramesForDestination at hok ⊢
  cases hfresh : c.received.wouldRecordFresh packet.packetNumber with
  | error e => rw [hfresh] at hok; simp at hok
  | ok fresh =>
    rw [hfresh] at hok
    cases fresh with
    | false => simp at hok
    | true =>
      cases hpre : c.validateReceivedFramePreconditions (packet.frames.map (·.1))
          packet.destinationConnectionId with
      | error e => rw [hpre] at hok; simp at hok
      | ok u =>
        rw [hpre] at hok
        cases hrec : c.received.recordWithEcn packet.oom packet.packetNumber packet.ecn with
        | mk result received =>
          rw [hrec] at hok
          cases result with
          | error e => simp at hok
          | ok fresh =>
            cases fresh with
            | false => simp at hok
            | true =>
              refine applyFrames_accounts est packet.frames _ log ?_ (Prod.ext hok rfl)
              exact h

end Connection

end Netz.Quic
