/-
Validate before mutate: what the preflight of a packet accepts, the packet's frames can do.

`Shadow c₀ c p` says that the connection `c` is what `c₀` has become after the frames that
the preflight `p` has accepted.  One lemma for each kind of frame keeps it, and the packet
follows by induction on its frames.  The frames may still fail for reasons of this endpoint's
own (`Error.isLocal`): a packet it wanted to send in answer did not go out, or the
configuration of its streams is unusable.

Two checks are made when a frame is applied and not by the preflight.  A final size that an
earlier packet's RESET_STREAM announced is compared only then, and so is the delay of an ACK
that takes an RTT sample decoded.  `FrameAgrees` says that neither will fail.
-/
import Netz.Proofs.Advance

namespace Netz.Quic

open Lib List StreamTable SentPacketTracker

namespace Connection

variable {M : Type} {c₀ c c' : Connection M} (est : Estimators M)

/-! ### The shadow of the connection -/

/-- `c` is what `c₀` became under the frames of the packet that `p` has accepted so far. -/
structure Shadow (c₀ c : Connection M) (p : Preflight) : Prop where
  frameConfig : c.frameConfig = c₀.frameConfig
  streams : TableShadow c₀.streams c.streams p.streams
  peerIds : p.peerConnectionIds = c.peerConnectionIds
  localIds : p.localConnectionIds = c.localConnectionIds
  path : ∀ data, c₀.pathValidation.outstanding data = true → data ∉ p.path.receivedResponses →
    c.pathValidation.outstanding data = true
  next : c₀.nextPacketNumber ≤ c.nextPacketNumber
  wf : c.sent.WF c.nextPacketNumber
  sent : ∀ n, c₀.sent.Sent n → c.sent.Sent n
  later : Later c₀.nextPacketNumber c₀.sent c.sent

namespace Shadow

variable {p p' : Preflight}

lemma start (hinv : Inv c) : Shadow c c c.preflightStart :=
  ⟨rfl, TableShadow.start hinv.streams, rfl, rfl, fun _ h _ => h, le_rfl, hinv.sent,
    fun _ h => h, Later.refl _ _⟩

lemma inv (h : Shadow c₀ c p) : Inv c := ⟨h.wf, h.streams.wf⟩

lemma localEndpoint (h : Shadow c₀ c p) : c.localEndpoint = c₀.localEndpoint := by
  unfold Connection.localEndpoint
  rw [h.streams.config]

lemma advance (h : Shadow c₀ c p) (ha : Advance c c') : Shadow c₀ c' p :=
  ⟨ha.frameConfig.trans h.frameConfig, ha.streams.shadow h.streams, h.peerIds.trans ha.peerIds.symm,
    h.localIds.trans ha.localIds.symm, by rw [ha.path]; exact h.path, Nat.le_trans h.next ha.next,
    ha.wf, fun n hn => ha.sent n (h.sent n hn), h.later.trans (ha.later _ h.next)⟩

end Shadow

/-- The two checks that only applying a frame makes will pass. -/
def FrameAgrees (c : Connection M) (nowNs : Option Nat) : Frame → Prop
  | .stream frame =>
    c.streams.AgreesHidden frame.streamId (frame.offset + frame.data.length) frame.fin
  | .resetStream reset => c.streams.AgreesHidden reset.streamId reset.finalSize true
  | .ack ack =>
    nowNs ≠ none → c.sent.sampledSentTime ack ≠ none →
      decodeAckDelayNanos ack.ackDelay c.frameConfig.peerAckDelayExponent ≠ none
  | _ => True

/--
A frame was applied and the shadow kept.  If it was not, and `agrees` holds, then this
endpoint could not do its part.
-/
def Applied (c₀ : Connection M) (p : Preflight) (agrees : Prop)
    (run : Except Error Unit × Connection M) : Prop :=
  (run.1 = .ok () ∧ Shadow c₀ run.2 p) ∨
    (∃ e, run.1 = .error e ∧ (agrees → e.isLocal = true) ∧ Inv run.2)

section Frames

variable {p p' : Preflight} {nowNs : Option Nat} {destination : Option Bytes}
  {outcome : SendOutcome} {agrees : Prop}

lemma Applied.send (h : Shadow c₀ c p) (outcome : SendOutcome) :
    Applied c₀ p agrees (c.sendTrackedFrames outcome) := by
  obtain ⟨hadvance, hlocal⟩ := sendTrackedFrames_advance h.wf
    (Prod.mk.eta (p := c.sendTrackedFrames outcome)).symm
  cases hres : (c.sendTrackedFrames outcome).1 with
  | ok u => exact .inl ⟨hres, h.advance hadvance⟩
  | error e => exact .inr ⟨e, hres, fun _ => hlocal e hres, hadvance.inv h.inv⟩

lemma Applied.ok (h : Shadow c₀ c p) : Applied c₀ p agrees (.ok (), c) := .inl ⟨rfl, h⟩

lemma Applied.quiet (h : Shadow c₀ c p) (ha : Advance c c') : Applied c₀ p agrees (.ok (), c') :=
  Applied.ok (h.advance ha)

/-- Preparing a frame and then sending an answer. -/
theorem Applied.ofAdvance (hs : Shadow c₀ c p) {run : Except Error Unit × Connection M}
    (ha : Advance c run.2) (hlocal : ∀ e, run.1 = .error e → e.isLocal = true) :
    Applied c₀ p agrees run := by
  cases hres : run.1 with
  | ok u => exact .inl ⟨hres, hs.advance ha⟩
  | error e => exact .inr ⟨e, hres, fun _ => hlocal e hres, ha.inv hs.inv⟩

lemma ack_applied (h : Shadow c₀ c p) (hinv : Inv c₀) {ack : AckFrame}
    (hpre : c₀.sent.validateAckCoversSentPackets ack = .ok ()) :
    Applied c₀ p (FrameAgrees c₀ nowNs (.ack ack)) (c.receiveAck est ack nowNs) := by
  have hnames := names_of_validate hinv.sent hpre
  have hlow := hnames.largest_lt hinv.sent
  by_cases hdelay : nowNs ≠ none → c.sent.sampledSentTime ack ≠ none →
      decodeAckDelayNanos ack.ackDelay c.frameConfig.peerAckDelayExponent ≠ none
  · obtain ⟨c', hok, ha⟩ := receiveAck_ok est h.wf nowNs (hnames.mono h.sent) hdelay
    rw [hok]
    exact Applied.quiet h ha
  obtain ⟨e, he⟩ := receiveAck_error est hdelay
  rw [he]
  refine .inr ⟨e, rfl, ?_, h.inv⟩
  intro hagree
  exfalso
  apply hdelay
  intro hnow hsamp
  rw [h.frameConfig]
  exact hagree hnow (h.later.sampled hinv.sent hlow hsamp)

variable {streams : StreamPreflight}

lemma stream_applied (h : Shadow c₀ c p) {frame : StreamFrame}
    (hpre : c₀.streams.validateStreamFramePrecondition p.streams frame = .ok streams) :
    Applied c₀ { p with streams := streams } (FrameAgrees c₀ nowNs (.stream frame))
      ((c.streams.receiveStream frame).1, { c with streams := (c.streams.receiveStream frame).2 }) := by
  by_cases hagree : FrameAgrees c₀ nowNs (.stream frame)
  · rcases h.streams.receiveStream hagree hpre with herr | ⟨t', hok, hs⟩
    · rw [herr]
      exact .inr ⟨_, rfl, fun _ => rfl, h.inv.sent, h.inv.streams⟩
    rw [hok]
    exact .inl ⟨rfl, h.frameConfig, hs, h.peerIds, h.localIds, h.path, h.next, h.wf, h.sent,
      h.later⟩
  obtain ⟨e, t', herr, hwf⟩ := h.streams.receiveStream_disagree hagree hpre
  rw [herr]
  exact .inr ⟨e, rfl, fun hc => absurd hc hagree, h.inv.sent, hwf⟩

lemma resetStream_applied (h : Shadow c₀ c p) {reset : ResetStreamFrame}
    (hpre : c₀.streams.validateResetStreamPrecondition p.streams reset = .ok streams) :
    Applied c₀ { p with streams := streams } (FrameAgrees c₀ nowNs (.resetStream reset))
      ((c.streams.receiveResetStream reset).1,
        { c with streams := (c.streams.receiveResetStream reset).2 }) := by
  by_cases hagree : FrameAgrees c₀ nowNs (.resetStream reset)
  · rcases h.streams.receiveResetStream hagree hpre with herr | ⟨t', hok, hs⟩
    · rw [herr]
      exact .inr ⟨_, rfl, fun _ => rfl, h.inv.sent, h.inv.streams⟩
    rw [hok]
    exact .inl ⟨rfl, h.frameConfig, hs, h.peerIds, h.localIds, h.path, h.next, h.wf, h.sent,
      h.later⟩
  obtain ⟨e, t', herr, hwf⟩ := h.streams.receiveResetStream_disagree hagree hpre
  rw [herr]
  exact .inr ⟨e, rfl, fun hc => absurd hc hagree, h.inv.sent, hwf⟩

lemma maxStreamData_applied (h : Shadow c₀ c p) {id maximum : Nat}
    (hpre : c₀.streams.validateStreamSendControlId id = .ok ()) :
    Applied c₀ p agrees (c.receiveMaxStreamData id maximum) := by
  obtain ⟨entry, t', hopen, hside, -⟩ :=
    sendStreamEntry_ok (h.streams.sendControlId hpre)
  unfold receiveMaxStreamData
  rw [hopen]
  exact Applied.quiet h (Advance.same h.wf rfl (hside.trans (SendSide.put _ _)) rfl rfl rfl
    rfl rfl)

lemma sendResetStream_advance (hwf : c.sent.WF c.nextPacketNumber) (id code size : Nat)
    (outcome : SendOutcome) {entry : StreamFlowEntry} (hfind : c.streams.findSendStreamEntry id = some entry)
    (hreset : entry.resetSent = none) :
    Advance c (c.sendResetStream id code size outcome).2 ∧
      ∀ e, (c.sendResetStream id code size outcome).1 = .error e → e.isLocal = true := by
  unfold sendResetStream sendStreamEntry
  rw [hfind]
  simp only
  rw [hreset]
  cases hsend : c.sendTrackedFrames outcome with
  | mk result c₁ =>
    obtain ⟨ha, hlocal⟩ := sendTrackedFrames_advance hwf hsend
    cases result with
    | error e =>
      refine ⟨ha, ?_⟩
      omega
    | ok u =>
      refine ⟨ha.trans (Advance.same ha.wf rfl (SendSide.put _ _) rfl rfl rfl rfl rfl), ?_⟩
      omega

lemma stopSending_applied (h : Shadow c₀ c p) {stop : StopSendingFrame}
    (hpre : c₀.streams.validateStreamSendControlId stop.streamId = .ok ()) :
    Applied c₀ p agrees (c.receiveStopSending stop outcome) := by
  obtain ⟨entry, t', hopen, hside, hfind⟩ :=
    sendStreamEntry_ok (h.streams.sendControlId hpre)
  have hid : entry.streamId = stop.streamId :=
    key_of_find? (fun e : StreamFlowEntry => e.streamId) hfind
  unfold receiveStopSending
  by_cases hmax : maxPacketNumber < c.nextPacketNumber
  · rw [if_pos hmax]
    exact .inr ⟨_, rfl, fun _ => rfl, h.inv⟩
  rw [if_neg hmax, hopen]
  simp only
  -- The stream is marked as stopped before the answer goes out.
  let stopped : StreamFlowEntry := { entry with stopped := some stop.applicationErrorCode }
  have ha : Advance c { c with streams := t'.putSendStreamEntry stopped } :=
    Advance.same h.wf rfl (hside.trans (SendSide.put _ _)) rfl rfl rfl rfl rfl
  by_cases hreset : entry.resetSent = none
  · rw [if_pos hreset]
    have hfind' : (t'.putSendStreamEntry stopped).findSendStreamEntry stop.streamId
        = some stopped := by
      have hrep := find?_replace (fun e : StreamFlowEntry => e.streamId) t'.sendStreams stopped
        stop.streamId
      show (t'.sendStreams.map _).find? _ = some stopped
      rw [hrep, if_pos hid.symm, show t'.sendStreams.find? (fun e => e.streamId == stop.streamId)
        = some entry from hfind]
      rfl
    obtain ⟨ha', hlocal⟩ := sendResetStream_advance ha.wf stop.streamId stop.applicationErrorCode
      entry.highestSentEnd outcome hfind' hreset
    exact Applied.ofAdvance h (ha.trans ha') hlocal
  · rw [if_neg hreset]
    exact Applied.quiet h ha

lemma streamsBlocked_applied (h : Shadow c₀ c p) {maximum : Nat} {direction : StreamDirection}
    (hle : maximum ≤ maxStreamCount) :
    Applied c₀ p agrees (c.receiveStreamsBlocked maximum direction outcome) := by
  unfold receiveStreamsBlocked
  rw [if_neg (by omega)]
  by_cases hlow : maximum < c.streams.recvMaxStreams direction
  · rw [if_pos hlow]
    exact Applied.send h outcome
  · rw [if_neg hlow]
    exact Applied.ok h

lemma maxStreams_applied (h : Shadow c₀ c p) {maximum : Nat} {direction : StreamDirection}
    (hle : maximum ≤ maxStreamCount) : Applied c₀ p agrees (c.receiveMaxStreams maximum direction) := by
  unfold receiveMaxStreams
  rw [if_neg (by omega)]
  cases direction with
  | bidirectional =>
    exact Applied.quiet h
      (Advance.same h.wf rfl ⟨rfl, rfl, rfl, rfl, rfl, rfl, fun _ h => h⟩ rfl rfl rfl rfl rfl)
  | unidirectional =>
    exact Applied.quiet h
      (Advance.same h.wf rfl ⟨rfl, rfl, rfl, rfl, rfl, rfl, fun _ h => h⟩ rfl rfl rfl rfl rfl)

lemma newToken_applied (h : Shadow c₀ c p) {token : Bytes}
    (hpre : c₀.validateNewToken token = .ok ()) : Applied c₀ p agrees (c.receiveNewToken token) := by
  have hsame : c.validateNewToken token = c₀.validateNewToken token := by
    unfold validateNewToken
    rw [h.localEndpoint]
  unfold receiveNewToken
  rw [hsame, hpre]
  by_cases hfull : c.frameConfig.maxStoredNewTokens ≤ c.storedNewTokens.length
  · rw [if_pos hfull]
    exact Applied.ok h
  · rw [if_neg hfull]
    exact Applied.quiet h (Advance.same h.wf rfl (SendSide.refl _) rfl rfl rfl rfl rfl)

lemma datagram_applied (h : Shadow c₀ c p) {data : Bytes} {lengthPresent : Bool}
    (hpre : c₀.validateDatagramFrame data lengthPresent = .ok ()) :
    Applied c₀ p agrees (c.receiveDatagramFrame data lengthPresent) := by
  have hsame : c.validateDatagramFrame data lengthPresent
      = c₀.validateDatagramFrame data lengthPresent := by
    unfold validateDatagramFrame
    rw [h.frameConfig]
  have hquiet : ∀ queue, Applied c₀ p agrees (.ok (), { c with datagramRecvQueue := queue }) := fun queue =>
    Applied.quiet h (Advance.same h.wf rfl (SendSide.refl _) rfl rfl rfl rfl rfl)
  unfold receiveDatagramFrame
  rw [hsame, hpre]
  by_cases hzero : c.frameConfig.maxDatagramQueueItems = 0
  · rw [if_pos hzero]
    exact Applied.ok h
  rw [if_neg hzero]
  by_cases hroom : c.datagramRecvQueue.length < c.frameConfig.maxDatagramQueueItems
  · simp [hroom, hquiet]
  · simp [hroom, hquiet]

lemma ackFrequency_applied (h : Shadow c₀ c p) {frame : AckFrequencyFrame}
    (hpre : c₀.frameConfig.enableAckFrequency = true) : Applied c₀ p agrees (c.receiveAckFrequency frame) := by
  unfold receiveAckFrequency
  rw [if_neg (by rw [h.frameConfig, hpre]; simp)]
  by_cases hold : frame.sequenceNumber < c.ackFrequencyRecvNextSequence
  · rw [if_pos hold]
    exact Applied.ok h
  · rw [if_neg hold]
    exact Applied.quiet h (Advance.same h.wf rfl (SendSide.refl _) rfl rfl rfl rfl rfl)

lemma setCloseInfo_applied (h : Shadow c₀ c p) (close : CloseInfo) :
    Applied c₀ p agrees (.ok (), c.setCloseInfo close) := by
  unfold setCloseInfo
  cases c.closeInfo with
  | none =>
    exact Applied.quiet h (Advance.same h.wf rfl (SendSide.refl _) rfl rfl rfl rfl rfl)
  | some existing =>
    simp only
    by_cases hdrain : close.state = .draining ∧ existing.state = .closing
    · rw [if_pos hdrain]
      exact Applied.quiet h
        (Advance.same h.wf rfl (SendSide.refl _) rfl rfl rfl rfl rfl)
    · rw [if_neg hdrain]
      exact Applied.ok h

lemma pathResponse_applied (h : Shadow c₀ c p) {data : PathData} {path : PathState.ReceivePreflight}
    (hpre : PathState.ReceivePreflight.recordResponse c₀.pathValidation p.path data = .ok path) :
    Applied c₀ { p with path := path } agrees
      (match c.pathValidation.receiveResponseValidated data with
        | (false, _) => (.error .unknownPathResponse, c)
        | (true, path) => (.ok (), { c with pathValidation := path }.setPeerAddressValidated true)) := by
  unfold PathState.ReceivePreflight.recordResponse at hpre
  obtain ⟨hdup, hpre⟩ := of_guard hpre nofun
  obtain ⟨hout, hpre⟩ := of_guard hpre nofun
  rw [Except.ok.injEq] at hpre
  rw [Bool.not_eq_false] at hout
  obtain ⟨s', hok, hothers⟩ := PathState.receiveResponseValidated_ok (h.path data hout hdup)
  rw [hok]
  refine .inl ⟨rfl, h.frameConfig, h.streams, h.peerIds, h.localIds, ?_, h.next, h.wf, h.sent, h.later⟩
  intro other hother hnot
  rw [← hpre] at hnot
  simp only [mem_append, mem_singleton, not_or] at hnot
  exact hothers other hnot.2 (h.path other hother hnot.1)

lemma pathChallenge_applied (h : Shadow c₀ c p) (data : PathData) :
    Applied c₀
      { p with path := PathState.ReceivePreflight.receiveChallenge c₀.pathValidation p.path data } agrees
      (.ok (), { c with pathValidation := (c.pathValidation.receiveChallenge data).2 }) := by
  have hresp : (PathState.ReceivePreflight.receiveChallenge c₀.pathValidation p.path
      data).receivedResponses = p.path.receivedResponses := by
    unfold PathState.ReceivePreflight.receiveChallenge
    by_cases hknown : data ∈ c₀.pathValidation.pendingResponses ∨ data ∈ p.path.pendingChallenges
    · rw [if_pos hknown]
    · rw [if_neg hknown]
  have hout : ∀ other, (c.pathValidation.receiveChallenge data).2.outstanding other
      = c.pathValidation.outstanding other := by
    intro other
    unfold PathState.receiveChallenge
    by_cases hknown : data ∈ c.pathValidation.pendingResponses
    · rw [if_pos hknown]
    · rw [if_neg hknown]
      rfl
  refine .inl ⟨rfl, h.frameConfig, h.streams, h.peerIds, h.localIds, ?_, h.next, h.wf, h.sent, h.later⟩
  intro other hother hnot
  rw [hresp] at hnot
  rw [hout]
  exact h.path other hother hnot

lemma newConnectionId_applied (h : Shadow c₀ c p) {frame : NewConnectionIdFrame}
    (hpre : c₀.preflightFrame destination p (.newConnectionId frame) = .ok p') :
    Applied c₀ p' agrees
      (applyFrame est nowNs destination c outcome (.newConnectionId frame)) := by
  unfold preflightFrame at hpre
  unfold applyFrame
  simp only at hpre ⊢
  rw [← h.frameConfig, h.peerIds] at hpre
  cases hadd : c.peerConnectionIds.addWithRetirePriorTo frame
      c.frameConfig.activeConnectionIdLimit with
  | mk result pool =>
    rw [hadd] at hpre
    cases result with
    | error e => simp at hpre
    | ok u =>
      simp only [Except.ok.injEq] at hpre
      rw [← hpre]
      exact .inl ⟨rfl, h.frameConfig, h.streams, rfl, h.localIds, h.path, h.next, h.wf,
        h.sent, h.later⟩

lemma retireConnectionId_applied (h : Shadow c₀ c p) {sequenceNumber : Nat}
    (hpre : c₀.preflightFrame destination p (.retireConnectionId sequenceNumber) = .ok p') :
    Applied c₀ p' agrees
      (applyFrame est nowNs destination c outcome (.retireConnectionId sequenceNumber)) := by
  unfold preflightFrame at hpre
  unfold applyFrame
  simp only at hpre ⊢
  rw [h.localIds] at hpre
  cases hadd : c.localConnectionIds.retireExceptPacketDestination sequenceNumber
      destination with
  | mk result pool =>
    rw [hadd] at hpre
    cases result with
    | error e => simp at hpre
    | ok u =>
      simp only [Except.ok.injEq] at hpre
      rw [← hpre]
      exact .inl ⟨rfl, h.frameConfig, h.streams, h.peerIds, rfl, h.path, h.next, h.wf,
        h.sent, h.later⟩

lemma handshakeDone_applied (h : Shadow c₀ c p)
    (hpre : c₀.preflightFrame destination p .handshakeDone = .ok p') :
    Applied c₀ p' agrees (applyFrame est nowNs destination c outcome .handshakeDone) := by
  unfold preflightFrame at hpre
  obtain ⟨hserver, hpre⟩ := of_guard hpre nofun
  rw [Except.ok.injEq] at hpre
  subst hpre
  have hclient : c.localEndpoint = .client := by
    rw [h.localEndpoint]
    cases hrole : c₀.localEndpoint with
    | client => rfl
    | server => exact absurd hrole hserver
  obtain ⟨status, hstatus⟩ : ∃ status,
      c.handshakeStatus.onHandshakeDoneReceived .client = .ok status := by
    unfold HandshakeStatus.onHandshakeDoneReceived
    cases c.handshakeStatus <;> exact ⟨_, rfl⟩
  unfold applyFrame
  rw [hclient, hstatus]
  exact Applied.quiet h (Advance.same h.wf rfl (SendSide.refl _) rfl rfl rfl rfl rfl)

/-- **One frame: what the preflight accepts is applied, up to this endpoint's own failures.** -/
theorem applyFrame_applied (h : Shadow c₀ c p) (hinv : Inv c₀) {frame : Frame}
    (hwell : frame.wellFormed = true) (hpre : c₀.preflightFrame destination p frame = .ok p') :
    Applied c₀ p' (FrameAgrees c₀ nowNs frame) (applyFrame est nowNs destination c outcome frame) := by
  have hstay : ∀ {x : Except Error Unit}, (x >>= fun _ => .ok p) = .ok p' → x = .ok () ∧ p = p' := by
    intro x hx
    obtain ⟨u, hu, hp⟩ := bind_eq_ok hx
    exact ⟨hu, by simpa using hp⟩
  have hsame : (.ok p : Except Error Preflight) = .ok p' → p = p' := by simp
  cases frame with
  | ack ack =>
    obtain ⟨hok, rfl⟩ := hstay hpre
    exact ack_applied est h hinv hok
  | stream frame =>
    obtain ⟨streams, hok, hp⟩ := bind_eq_ok hpre
    rw [Except.ok.injEq] at hp
    subst hp
    exact stream_applied h hok
  | resetStream reset =>
    obtain ⟨streams, hok, hp⟩ := bind_eq_ok hpre
    rw [Except.ok.injEq] at hp
    subst hp
    exact resetStream_applied h hok
  | streamDataBlocked id maximum =>
    obtain ⟨-, rfl⟩ := hstay hpre
    exact Applied.ok h
  | maxStreamData id maximum =>
    obtain ⟨hok, rfl⟩ := hstay hpre
    exact maxStreamData_applied h hok
  | stopSending stop =>
    obtain ⟨hok, rfl⟩ := hstay hpre
    exact stopSending_applied h hok
  | newToken token =>
    obtain ⟨hok, rfl⟩ := hstay hpre
    exact newToken_applied h hok
  | datagram data lengthPresent =>
    obtain ⟨hok, rfl⟩ := hstay hpre
    exact datagram_applied h hok
  | newConnectionId frame => exact newConnectionId_applied est h hpre
  | retireConnectionId sequenceNumber => exact retireConnectionId_applied est h hpre
  | pathChallenge data =>
    unfold preflightFrame at hpre
    simp only [Except.ok.injEq] at hpre
    rw [← hpre]
    exact pathChallenge_applied h data
  | pathResponse data =>
    obtain ⟨path, hok, hp⟩ := bind_eq_ok hpre
    rw [Except.ok.injEq] at hp
    subst hp
    exact pathResponse_applied h hok
  | handshakeDone => exact handshakeDone_applied est h hpre
  | ackFrequency frame =>
    unfold preflightFrame at hpre
    by_cases hon : c₀.frameConfig.enableAckFrequency = true
    · rw [if_pos hon] at hpre
      obtain rfl := hsame hpre
      exact ackFrequency_applied h hon
    · rw [if_neg hon] at hpre; simp at hpre
  | immediateAck =>
    unfold preflightFrame at hpre
    by_cases hon : c₀.frameConfig.enableAckFrequency = true
    · rw [if_pos hon] at hpre
      obtain rfl := hsame hpre
      exact Applied.quiet h
        (Advance.same h.wf rfl (SendSide.refl _) rfl rfl rfl rfl rfl)
    · rw [if_neg hon] at hpre; simp at hpre
  | maxStreamsBidi maximum =>
    obtain rfl := hsame hpre
    exact maxStreams_applied h (by simpa [Frame.wellFormed] using hwell)
  | maxStreamsUni maximum =>
    obtain rfl := hsame hpre
    exact maxStreams_applied h (by simpa [Frame.wellFormed] using hwell)
  | streamsBlockedBidi maximum =>
    obtain rfl := hsame hpre
    exact streamsBlocked_applied h (by simpa [Frame.wellFormed] using hwell)
  | streamsBlockedUni maximum =>
    obtain rfl := hsame hpre
    exact streamsBlocked_applied h (by simpa [Frame.wellFormed] using hwell)
  | connectionClose errorCode frameType reasonPhrase =>
    obtain rfl := hsame hpre
    exact setCloseInfo_applied h _
  | applicationClose errorCode reasonPhrase =>
    obtain rfl := hsame hpre
    exact setCloseInfo_applied h _
  | maxData maximumData =>
    obtain rfl := hsame hpre
    exact Applied.quiet h (Advance.same h.wf rfl (SendSide.refl _) rfl rfl rfl rfl rfl)
  | padding len =>
    obtain rfl := hsame hpre
    exact Applied.ok h
  | ping =>
    obtain rfl := hsame hpre
    exact Applied.ok h
  | crypto offset data =>
    obtain rfl := hsame hpre
    exact Applied.ok h
  | dataBlocked maximumData =>
    obtain rfl := hsame hpre
    exact Applied.ok h

/-- **All frames of a packet, in order.** -/
theorem applyFrames_applied (nowNs : Option Nat) (hinv : Inv c₀) :
    ∀ (frames : List (Frame × SendOutcome)) (c : Connection M) (p : Preflight), Shadow c₀ c p →
      (∀ f ∈ frames, f.1.wellFormed = true) →
      c₀.preflightFrames destination p (frames.map (·.1)) = .ok p' →
      Applied c₀ p' (∀ f ∈ frames, FrameAgrees c₀ nowNs f.1)
        (applyFrames est nowNs destination c frames) := by
  intro frames
  induction frames with
  | nil =>
    intro c p h _ hpre
    simp only [map_nil, preflightFrames, Except.ok.injEq] at hpre
    rw [← hpre]
    exact Applied.ok h
  | cons f rest ih =>
    intro c p h hwell hpre
    obtain ⟨frame, outcome⟩ := f
    rw [map_cons, preflightFrames] at hpre
    cases hone : c₀.preflightFrame destination p frame with
    | error e => rw [hone] at hpre; simp at hpre
    | ok p₁ =>
      rw [hone] at hpre
      have happ : Applied c₀ p₁ (FrameAgrees c₀ nowNs frame)
          (applyFrame est nowNs destination c outcome frame) :=
        applyFrame_applied est h hinv (hwell (frame, outcome) mem_cons_self) hone
      unfold applyFrames
      generalize applyFrame est nowNs destination c outcome frame = run at happ
      obtain ⟨result, c₁⟩ := run
      rcases happ with ⟨hok, hs⟩ | ⟨e, herr, hlocal, hinv₁⟩
      · simp only at hok
        subst hok
        rcases ih c₁ p₁ hs (fun g hg => hwell g (mem_cons_of_mem _ hg)) hpre with
          hdone | ⟨e, he, hlocal, hinv₁⟩
        · exact .inl hdone
        · exact .inr ⟨e, he, fun hall => hlocal (fun g hg => hall g (mem_cons_of_mem _ hg)),
            hinv₁⟩
      simp only at herr
      subst herr
      exact .inr ⟨e, rfl, fun hall => hlocal (hall (frame, outcome) mem_cons_self), hinv₁⟩

end Frames

/-! ### One packet -/

/-- The two checks that only applying the frames makes will pass, given the state before the packet. -/
def PacketAgrees (c : Connection M) (packet : Packet) : Prop :=
  ∀ f ∈ packet.frames, FrameAgrees c packet.nowNs f.1

/--
A packet is handled as a whole: once the preflight has accepted its frames no protocol error
follows, and a packet that is refused for a protocol error changes nothing.
-/
structure HandledWhole (c : Connection M) (packet : Packet) (run : Except Error Unit × Connection M) :
    Prop where
  accepted : c.validateReceivedFramePreconditions (packet.frames.map (·.1))
      packet.destinationConnectionId = .ok () → ∀ e, run.1 = .error e → e.isLocal = true
  refused : ∀ e, run.1 = .error e → e.isLocal = false → run.2 = c

lemma HandledWhole.refuse {packet : Packet} {e : Error}
    (h : c.validateReceivedFramePreconditions (packet.frames.map (·.1))
      packet.destinationConnectionId = .ok () → e.isLocal = true) :
    HandledWhole c packet (.error e, c) := by
  refine ⟨?_, fun _ _ _ => rfl⟩
  intro hok e' he'
  rw [Except.error.injEq] at he'
  rw [← he']
  exact h hok

/-- A run that fails only for reasons of this endpoint's own. -/
theorem HandledWhole.ofLocal {packet : Packet} {run : Except Error Unit × Connection M}
    (h : ∀ e, run.1 = .error e → e.isLocal = true) : HandledWhole c packet run := by
  refine ⟨fun _ => h, ?_⟩
  intro e he hnot
  simp [h e he] at hnot

lemma wouldRecordFresh_error {r : ReceivedPacketTracker} {n : Nat} {e : Error}
    (h : r.wouldRecordFresh n = .error e) : e.isLocal = true := by
  unfold ReceivedPacketTracker.wouldRecordFresh at h
  by_cases h₁ : varintMax < n
  · rw [if_pos h₁, Except.error.injEq] at h
    rw [← h]
    rfl
  rw [if_neg h₁] at h
  obtain ⟨-, h⟩ := of_guard h nofun
  obtain ⟨-, h⟩ := of_guard h nofun
  cases hrs : r.ranges with
  | nil => rw [hrs] at h; simp at h
  | cons newest older =>
    rw [hrs] at h
    grind

/-- **What a packet does: the invariant is kept, and a packet that agrees is handled whole.** -/
theorem packet_handled (hinv : Inv c) (packet : Packet) :
    Inv (c.applyReceivedFramesForDestination est packet).2 ∧
    (PacketAgrees c packet →
      HandledWhole c packet (c.applyReceivedFramesForDestination est packet)) := by
  unfold applyReceivedFramesForDestination
  cases hfresh : c.received.wouldRecordFresh packet.packetNumber with
  | error e => exact ⟨hinv, fun _ => HandledWhole.refuse fun _ => wouldRecordFresh_error hfresh⟩
  | ok fresh =>
    cases fresh with
    | false => exact ⟨hinv, fun _ => HandledWhole.refuse fun _ => rfl⟩
    | true =>
      cases hpre : c.validateReceivedFramePreconditions (packet.frames.map (·.1))
          packet.destinationConnectionId with
      | error e =>
        refine ⟨hinv, fun _ => HandledWhole.refuse ?_⟩
        simp [hpre]
      | ok u =>
        cases hrec : c.received.recordWithEcn packet.oom packet.packetNumber packet.ecn with
        | mk result received =>
          cases result with
          | error e =>
            refine ⟨⟨hinv.sent, hinv.streams⟩, fun _ => HandledWhole.ofLocal ?_⟩
            intro e' he'
            rw [Except.error.injEq] at he'
            rw [← he']
            exact ReceivedPacketTracker.recordWithEcn_error hrec
          | ok fresh =>
            cases fresh with
            | false =>
              refine ⟨⟨hinv.sent, hinv.streams⟩, fun _ => HandledWhole.ofLocal ?_⟩
              intro e' he'
              rw [Except.error.injEq] at he'
              rw [← he']
              rfl
            | true =>
              unfold validateReceivedFramePreconditions at hpre
              cases hframes : c.preflightFrames packet.destinationConnectionId
                  c.preflightStart (packet.frames.map (·.1)) with
              | error e => rw [hframes] at hpre; simp at hpre
              | ok p =>
                have hstart : Shadow c { c with
                    received := received
                    expectedPacketNumber :=
                      if c.expectedPacketNumber ≤ packet.packetNumber then
                        packet.packetNumber + 1
                      else c.expectedPacketNumber } c.preflightStart :=
                  (Shadow.start hinv).advance (Advance.same hinv.sent rfl
                    (SendSide.refl _) rfl rfl rfl rfl rfl)
                have happ := applyFrames_applied est packet.nowNs hinv packet.frames _ _
                  hstart packet.wellFormed hframes
                rcases happ with ⟨hok, hs⟩ | ⟨e, he, hlocal, hinv'⟩
                · refine ⟨hs.inv, fun _ => HandledWhole.ofLocal ?_⟩
                  simp [hok]
                refine ⟨hinv', fun hagree => HandledWhole.ofLocal ?_⟩
                intro e' he'
                rw [he, Except.error.injEq] at he'
                rw [← he']
                exact hlocal hagree

/-! ### Runs -/

section

variable {config : ConnectionConfig} {frameConfig : FrameConfig} {metrics : M}
  {localId peerId : Bytes} {token : ResetToken}

lemma init_streams (h : init config frameConfig metrics localId peerId token = .ok c) :
    c.sent.WF c.nextPacketNumber ∧ c.streams.recvStreams = [] ∧ c.streams.recvDataTotal = 0 := by
  unfold init at h
  obtain ⟨streams, hstreams, h⟩ := bind_eq_ok h
  obtain ⟨localIds, -, h⟩ := bind_eq_ok h
  obtain ⟨peerIds, -, h⟩ := bind_eq_ok h
  rw [Except.ok.injEq] at h
  unfold StreamTable.init at hstreams
  cases hflow : RecvFlow.initWithMaxWindow config.initialReceiveMaxData config.receiveWindow
      (config.maxReceiveWindow.getD config.receiveWindow) with
  | error e => rw [hflow] at hstreams; simp at hstreams
  | ok recvFlow =>
    rw [hflow] at hstreams
    simp only [Except.ok.injEq] at hstreams
    rw [← h, ← hstreams]
    exact ⟨init_wf, rfl, rfl⟩

lemma init_inv (h : init config frameConfig metrics localId peerId token = .ok c) : Inv c := by
  obtain ⟨hsent, hstreams, -⟩ := init_streams h
  refine ⟨hsent, fun id entry he => ?_⟩
  simp [findRecvStreamEntry, hstreams] at he

end

/-- No call but a packet charges the receiving side or forgets what it holds. -/
theorem step_kept (c : Connection M) {op : Op M} (hop : ∀ packet, op ≠ .packet packet) :
    Kept c.streams (step est c op).2.streams := by
  cases op with
  | packet packet => exact absurd rfl (hop packet)
  | send record =>
    unfold step
    dsimp only
    split
    · exact .refl _
    · split <;> exact .refl _
  | skipPacketNumber =>
    unfold step
    dsimp only
    split <;> exact .refl _
  | markPacketAcknowledged | lossTimer | other => exact .of_eq rfl rfl le_rfl
  | releaseReceivedCapacity id amount sent =>
    exact releaseReceivedCapacity_kept c.streams id amount sent
  | consumeReceived amount => exact .of_eq rfl rfl (RecvFlow.consume_limit _ _)
  | consumeStreamReceived id amount =>
    exact consumeStreamReceived_kept c.streams id amount
  | releaseCompletedPeerStream id sent =>
    have hkept := releaseCompletedPeerStream_kept c.streams id sent
    unfold step
    dsimp only
    generalize c.streams.releaseCompletedPeerStream id sent = run at hkept
    obtain ⟨result, streams⟩ := run
    cases result with
    | error | ok => exact hkept

/-- **Every call keeps the invariant**, whatever packets it is given. -/
theorem step_inv (hinv : Inv c) (op : Op M) : Inv (step est c op).2 := by
  by_cases hop : ∃ packet, op = .packet packet
  · obtain ⟨packet, rfl⟩ := hop
    exact (packet_handled est hinv packet).1
  refine ⟨?_, (step_kept est c fun packet h => hop ⟨packet, h⟩).wf hinv.streams⟩
  cases op with
  | packet packet => exact absurd ⟨packet, rfl⟩ hop
  | send record =>
    unfold step
    simp only
    by_cases hmax : maxPacketNumber < c.nextPacketNumber
    · simp [hmax, hinv.sent]
    rw [if_neg hmax]
    obtain ⟨sent, hsent, hwf, -, -⟩ := sentNext_wf hinv.sent
      (by unfold maxPacketNumber at hmax; omega)
      { record with packetNumber := c.nextPacketNumber, acknowledged := false, lost := false } rfl
    rw [hsent]
    exact hwf
  | skipPacketNumber =>
    unfold step
    by_cases hmax : maxPacketNumber < c.nextPacketNumber
    · simp [hmax, hinv.sent]
    · rw [if_neg hmax]
      exact hinv.sent.skip (by unfold maxPacketNumber at hmax; omega)
  | markPacketAcknowledged n => exact (markAcknowledged_same c.sent n).wf hinv.sent
  | lossTimer now largest =>
    exact (detectTimeThresholdLoss_same c.sent now _ largest).wf hinv.sent
  | releaseReceivedCapacity | consumeReceived | consumeStreamReceived | other => exact hinv.sent
  | releaseCompletedPeerStream id sent =>
    unfold step
    dsimp only
    split <;> exact hinv.sent

/--
**Validate before mutate.**  In every state a connection can reach, a packet that does not
contradict an earlier RESET_STREAM, and whose ACK delays decode where they are sampled, is
handled as a whole.
-/
theorem packets_handled_whole {config : ConnectionConfig} {frameConfig : FrameConfig} {metrics : M}
    {localId peerId : Bytes} {token : ResetToken}
    (hinit : init config frameConfig metrics localId peerId token = .ok c) (ops : List (Op M)) :
    ∀ e ∈ trace (step est) c ops, ∀ packet, e.input = .packet packet → PacketAgrees e.pre packet →
      HandledWhole e.pre packet (e.output, e.post) := by
  intro e he packet hinput hagree
  obtain ⟨hpre, hrun⟩ := trace_pre (step est) Inv (init_inv hinit)
    (fun s a hs => step_inv est hs a) ops e he
  have hhandled := (packet_handled est hpre packet).2 hagree
  have : (e.output, e.post) = step est e.pre (.packet packet) := by
    rw [hrun, hinput]
    rfl
  rw [this]
  exact hhandled

/-! ### A reset and a packet that follows it -/

/-- Estimators that learn nothing. -/
def silent : Estimators Unit :=
  ⟨fun m _ _ => m, fun m _ _ => m, fun m _ _ _ => m, fun _ => 0⟩

def server : Connection Unit :=
  (init { localEndpoint := .server } {} () [1] [2] (Vector.replicate 16 0)).toOption.get rfl

lemma server_init :
    init { localEndpoint := .server } {} () [1] [2] (Vector.replicate 16 0) = .ok server := rfl

/-- A packet that resets stream 0 at offset 10. -/
def resetPacket : Packet where
  packetNumber := 0
  frames := [(.resetStream ⟨0, 0, 10⟩, .sent 0 none)]
  wellFormed := by decide

/-- A byte for stream 4, and the same reset again. -/
def repeatedReset : Packet where
  packetNumber := 1
  frames := [(.stream ⟨4, 0, false, [7]⟩, .sent 0 none), (.resetStream ⟨0, 0, 10⟩, .sent 0 none)]
  wellFormed := by decide

/-- A byte for stream 4, and a reset that gives stream 0 another final size. -/
def contradictedReset : Packet where
  packetNumber := 1
  frames := [(.stream ⟨4, 0, false, [7]⟩, .sent 0 none), (.resetStream ⟨0, 0, 20⟩, .sent 0 none)]
  wellFormed := by decide

/-- The server after `resetPacket`. -/
def resetServer : Connection Unit := exec (step silent) server [.packet resetPacket]

theorem packets_handled_whole_repeated_reset :
    HandledWhole resetServer repeatedReset (step silent resetServer (.packet repeatedReset)) := by
  refine packets_handled_whole silent server_init [.packet resetPacket, .packet repeatedReset]
    (event (step silent) resetServer (.packet repeatedReset))
    (mem_cons_of_mem _ mem_cons_self) repeatedReset rfl ?_
  intro f hf
  simp only [repeatedReset, mem_cons, not_mem_nil, or_false] at hf
  rcases hf with rfl | rfl
  · intro known hknown
    have hnone : resetServer.streams.hiddenFinalSize 4 = none := by decide
    exact absurd (hnone.symm.trans hknown) (by simp)
  intro known hknown
  have hten : resetServer.streams.hiddenFinalSize 0 = some 10 := by decide
  have hsize : 10 = known := by simpa using hten.symm.trans hknown
  exact ⟨hsize.le, fun _ => hsize⟩

/--
The preflight accepts a packet that contradicts the earlier reset.  Its STREAM frame has been
applied by the time its RESET_STREAM is refused.
-/
theorem contradicted_reset_half_applied :
    resetServer.validateReceivedFramePreconditions (contradictedReset.frames.map (·.1)) none = .ok () ∧
    (step silent resetServer (.packet contradictedReset)).1 = .error .finalSizeMismatch ∧
    resetServer.streams.recvDataTotal = 10 ∧
    (step silent resetServer (.packet contradictedReset)).2.streams.recvDataTotal = 11 ∧
    ¬ HandledWhole resetServer contradictedReset
      (step silent resetServer (.packet contradictedReset)) := by
  refine ⟨by decide, by decide, by decide, by decide, ?_⟩
  intro h
  have hlocal := h.accepted (by decide) .finalSizeMismatch (by decide)
  simp [Error.isLocal] at hlocal

end Connection

end Netz.Quic
