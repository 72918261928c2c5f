/-
Sending and acknowledging, as the receive path sees them.

Handling a packet may make the endpoint send an answer and may settle packets it sent.
`Advance c c'` says that nothing else has changed that a check of the receive path looks at.
An ACK that names packets that were sent always applies, unless it takes an RTT sample and
its delay does not decode.
-/
import Netz.Proofs.AckApply
import Netz.Proofs.StreamCalls
import Netz.Proofs.TableShadow
import Netz.Quic.Connection

namespace Netz.Quic

open Lib SentPacketTracker List StreamTable

namespace ReceivedPacketTracker

variable {t t' : ReceivedPacketTracker} {oom : Bool} {n : Nat} {e : Error}

lemma insertRange_error {i : Nat} {r : PacketRange} (h : t.insertRange oom i r = (.error e, t')) :
    e.isLocal = true := by
  unfold insertRange at h
  obtain ⟨-, h⟩ := of_guard h nofun
  by_cases h₂ : t.maxRanges ≤ t.ranges.length
  · rw [if_pos h₂] at h
    obtain ⟨-, h⟩ := of_guard h nofun
    cases hlast : t.ranges.getLast? with
    | none | some => rw [hlast] at h; simp at h
  rw [if_neg h₂] at h
  by_cases hoom : oom = true
  · rw [if_pos hoom, Prod.mk.injEq, Except.error.injEq] at h
    rw [← h.1]
    rfl
  · rw [if_neg hoom] at h; simp at h

lemma scanRanges_error : ∀ (rs : List PacketRange) (i : Nat),
    t.scanRanges oom n rs i = (.error e, t') → e.isLocal = true := by
  intro rs
  induction rs with
  | nil => intro i h; exact insertRange_error h
  | cons r rest ih =>
    intro i h
    unfold scanRanges at h
    obtain ⟨-, h⟩ := of_guard h nofun
    obtain ⟨-, h⟩ := of_guard h nofun
    obtain ⟨-, h⟩ := of_guard h nofun
    by_cases h₄ : r.stop < n
    · rw [if_pos h₄] at h
      exact insertRange_error h
    · rw [if_neg h₄] at h
      exact ih (i + 1) h

/-- Recording a packet number fails for want of memory or of a number that fits. -/
theorem recordFresh_error (h : t.recordFresh oom n = (.error e, t')) : e.isLocal = true := by
  unfold recordFresh at h
  by_cases h₁ : varintMax < n
  · rw [if_pos h₁, Prod.mk.injEq, Except.error.injEq] at h
    rw [← h.1]
    rfl
  rw [if_neg h₁] at h
  obtain ⟨-, h⟩ := of_guard h nofun
  cases hrs : t.ranges with
  | nil =>
    rw [hrs] at h
    exact insertRange_error h
  | cons newest older =>
    rw [hrs] at h
    simp only at h
    by_cases h₃ : newest.stop < n
    · rw [if_pos h₃] at h
      obtain ⟨-, h⟩ := of_guard h nofun
      exact insertRange_error h
    rw [if_neg h₃] at h
    obtain ⟨-, h⟩ := of_guard h nofun
    unfold recordBelowNewest at h
    generalize (newest :: older).getLast _ = oldest at h
    by_cases h₅ : n < oldest.start
    · rw [if_pos h₅] at h
      obtain ⟨-, h⟩ := of_guard h nofun
      exact insertRange_error h
    rw [if_neg h₅] at h
    obtain ⟨-, h⟩ := of_guard h nofun
    exact scanRanges_error _ _ h

lemma recordWithEcn_error {ecn : EcnCodepoint} (h : t.recordWithEcn oom n ecn = (.error e, t')) :
    e.isLocal = true := by
  unfold recordWithEcn at h
  cases hrec : t.recordFresh oom n with
  | mk result t₁ =>
    rw [hrec] at h
    cases result with
    | ok fresh => simp at h
    | error e₁ =>
      simp only [Prod.mk.injEq, Except.error.injEq] at h
      rw [← h.1]
      exact recordFresh_error hrec

end ReceivedPacketTracker

namespace PathState

lemma mem_swapRemove {α : Type} {l : List α} {i : Nat} {x y : α} (hx : x ∈ l)
    (hi : l[i]? = some y) (hne : y ≠ x) : x ∈ swapRemove l i := by
  obtain ⟨k, hk⟩ := List.mem_iff_getElem?.mp hx
  have hlt := lt_of_getElem? hk
  have hin := lt_of_getElem? hi
  have hki : k ≠ i := by
    intro hc
    rw [hc, hi, Option.some.injEq] at hk
    exact hne hk
  unfold swapRemove
  rw [List.getLast?_eq_getElem?, List.getElem?_eq_getElem (by omega), List.mem_iff_getElem?]
  by_cases hend : k = l.length - 1
  · -- The last element has moved to the place of the removed one.
    refine ⟨i, ?_⟩
    rw [List.getElem?_dropLast, if_pos (by rw [List.length_set]; omega), List.getElem?_set,
      if_pos rfl, if_pos hin, ← List.getElem?_eq_getElem (by omega), ← hend, hk]
  refine ⟨k, ?_⟩
  rw [List.getElem?_dropLast, if_pos (by rw [List.length_set]; omega),
    List.getElem?_set_ne (Ne.symm hki), hk]

lemma outstanding_iff (s : PathState) (data : PathData) :
    s.outstanding data = true ↔ ∃ c ∈ s.outstandingChallenges, c.data = data := by
  unfold outstanding
  simp [any_eq_true]

lemma receiveResponseValidated_ok {s : PathState} {data : PathData}
    (h : s.outstanding data = true) :
    ∃ s', s.receiveResponseValidated data = (true, s') ∧
      ∀ other, other ≠ data → s.outstanding other = true → s'.outstanding other = true := by
  obtain ⟨c, hc, hdata⟩ := (outstanding_iff s data).mp h
  unfold receiveResponseValidated
  cases hidx : s.outstandingChallenges.findIdx? (fun c => c.data == data) with
  | none =>
    rw [findIdx?_eq_none_iff] at hidx
    have := hidx c hc
    simp [hdata] at this
  | some i =>
    refine ⟨_, rfl, ?_⟩
    obtain ⟨hi, hat, -⟩ := findIdx?_eq_some_iff_getElem.mp hidx
    intro other hne hother
    obtain ⟨d, hd, hddata⟩ := (outstanding_iff s other).mp hother
    refine (outstanding_iff _ other).mpr ⟨d, ?_, hddata⟩
    refine mem_swapRemove hd (getElem?_eq_getElem hi) ?_
    intro hc
    rw [beq_iff_eq, hc, hddata] at hat
    exact hne hat

end PathState

namespace Connection

variable {M : Type} {c₀ c c' : Connection M}

/-- What every call keeps. -/
structure Inv (c : Connection M) : Prop where
  sent : c.sent.WF c.nextPacketNumber
  streams : c.streams.TableWF

/-! ### Sending and acknowledging -/

/-- `c'` differs from `c` in what was sent and acknowledged, and in what no check reads. -/
structure Advance (c c' : Connection M) : Prop where
  frameConfig : c'.frameConfig = c.frameConfig
  streams : SendSide c.streams c'.streams
  peerIds : c'.peerConnectionIds = c.peerConnectionIds
  localIds : c'.localConnectionIds = c.localConnectionIds
  path : c'.pathValidation = c.pathValidation
  next : c.nextPacketNumber ≤ c'.nextPacketNumber
  wf : c'.sent.WF c'.nextPacketNumber
  sent : ∀ n, c.sent.Sent n → c'.sent.Sent n
  later : ∀ bound, bound ≤ c.nextPacketNumber → SentPacketTracker.Later bound c.sent c'.sent

namespace Advance

lemma refl (hwf : c.sent.WF c.nextPacketNumber) : Advance c c :=
  ⟨rfl, SendSide.refl _, rfl, rfl, rfl, le_rfl, hwf, fun _ h => h,
    fun bound _ => SentPacketTracker.Later.refl bound _⟩

lemma trans {c₁ c₂ c₃ : Connection M} (h₁ : Advance c₁ c₂) (h₂ : Advance c₂ c₃) : Advance c₁ c₃ :=
  ⟨h₂.frameConfig.trans h₁.frameConfig, h₁.streams.trans h₂.streams, h₂.peerIds.trans h₁.peerIds,
    h₂.localIds.trans h₁.localIds, h₂.path.trans h₁.path, Nat.le_trans h₁.next h₂.next, h₂.wf,
    fun n h => h₂.sent n (h₁.sent n h),
    fun bound hb => (h₁.later bound hb).trans (h₂.later bound (hb.trans h₁.next))⟩

/-- A change to what no check reads. -/
theorem same (hwf : c.sent.WF c.nextPacketNumber) (h₁ : c'.frameConfig = c.frameConfig)
    (h₂ : SendSide c.streams c'.streams) (h₃ : c'.peerConnectionIds = c.peerConnectionIds)
    (h₄ : c'.localConnectionIds = c.localConnectionIds) (h₅ : c'.pathValidation = c.pathValidation)
    (h₆ : c'.nextPacketNumber = c.nextPacketNumber) (h₇ : c'.sent = c.sent) : Advance c c' :=
  ⟨h₁, h₂, h₃, h₄, h₅, by omega, by rw [h₆, h₇]; exact hwf, fun n hn => by rw [h₇]; exact hn,
    fun bound _ => by rw [h₇]; exact SentPacketTracker.Later.refl bound _⟩

lemma inv (h : Advance c c') (hinv : Inv c) : Inv c' := by
  refine ⟨h.wf, ?_⟩
  intro id entry he
  refine hinv.streams id entry ?_
  unfold findRecvStreamEntry at he ⊢
  rw [← h.streams.recvStreams]
  exact he

end Advance

lemma sendTrackedFrames_advance {outcome : SendOutcome} {result : Except Error Unit}
    (hwf : c.sent.WF c.nextPacketNumber) (h : c.sendTrackedFrames outcome = (result, c')) :
    Advance c c' ∧ ∀ e, result = .error e → e.isLocal = true := by
  have hstay : ∀ e : Error, e.isLocal = true → (.error e, c) = (result, c') →
      Advance c c' ∧ ∀ e, result = .error e → e.isLocal = true := by
    intro e he heq
    rw [Prod.mk.injEq] at heq
    refine ⟨by rw [← heq.2]; exact Advance.refl hwf, ?_⟩
    simp [← heq.1, he]
  have htrack : ∀ e, c.recovery.trackSent c.nextPacketNumber = .error e → e.isLocal = true := by
    intro e he
    unfold RecoveryQueue.trackSent at he
    split at he
    · rw [Except.error.injEq] at he
      rw [← he]
      rfl
    split at he
    · rw [Except.error.injEq] at he
      rw [← he]
      rfl
    · simp at he
  have hsend : ∀ e : SendError, e.toError.isLocal = true := by
    intro e
    cases e <;> rfl
  unfold sendTrackedFrames at h
  by_cases hmax : maxPacketNumber < c.nextPacketNumber
  · rw [if_pos hmax] at h
    exact hstay _ rfl h
  rw [if_neg hmax] at h
  cases outcome with
  | failed e tracked =>
    cases tracked with
    | false => exact hstay _ (hsend e) h
    | true =>
      cases ht : c.recovery.trackSent c.nextPacketNumber with
      | error e' =>
        rw [ht] at h
        exact hstay _ (htrack _ ht) h
      | ok pair =>
        rw [ht] at h
        simp only [Prod.mk.injEq] at h
        constructor
        · rw [← h.2]
          exact ⟨rfl, SendSide.refl _, rfl, rfl, rfl, le_rfl, hwf,
            fun _ h => h, fun bound _ => SentPacketTracker.Later.refl bound _⟩
        · simp [← h.1, hsend]
  | sent bytes sentTimeNs =>
    unfold trackNext at h
    cases ht : c.recovery.trackSent c.nextPacketNumber with
    | error e =>
      rw [ht] at h
      exact hstay _ (htrack _ ht) h
    | ok pair =>
      rw [ht] at h
      simp only at h
      obtain ⟨sent, hsent, hwf', hmono, hlater⟩ := sentNext_wf hwf
        (by unfold maxPacketNumber at hmax; omega)
        { packetNumber := c.nextPacketNumber, bytes := bytes, sentTimeNs := sentTimeNs } rfl
      rw [hsent] at h
      simp only [Prod.mk.injEq] at h
      constructor
      · rw [← h.2]
        exact ⟨rfl, SendSide.refl _, rfl, rfl, rfl, Nat.le_succ _, hwf', hmono, hlater⟩
      · simp [← h.1]

variable (est : Estimators M)

lemma settleAck_advance (ack : AckFrame) (nowNs : Option Nat) (acked : AckResult)
    {sent : SentPacketTracker} (hwf : sent.WF c.nextPacketNumber)
    (hsent : ∀ n, c.sent.Sent n → sent.Sent n)
    (hlater : ∀ bound, SentPacketTracker.Later bound c.sent sent) :
    Advance c (c.settleAck est ack nowNs acked sent) := by
  have hfirst := detectPacketThresholdLoss_same sent ack.largestAcknowledged
    defaultPacketThreshold
  have hbuild : ∀ c' : Connection M, c'.frameConfig = c.frameConfig → c'.streams = c.streams →
      c'.peerConnectionIds = c.peerConnectionIds → c'.localConnectionIds = c.localConnectionIds →
      c'.pathValidation = c.pathValidation → c'.nextPacketNumber = c.nextPacketNumber →
      SentPacketTracker.SameNumbers sent c'.sent → Advance c c' := by
    intro c' h₁ h₂ h₃ h₄ h₅ h₆ hsame
    refine ⟨h₁, by rw [h₂]; exact SendSide.refl _, h₃, h₄, h₅, by omega,
      by rw [h₆]; exact hsame.wf hwf, fun n hn => (hsame.sent n).mpr (hsent n hn), ?_⟩
    intro bound _
    exact (hlater bound).trans (hsame.later bound)
  unfold settleAck
  cases nowNs with
  | none => exact hbuild _ rfl rfl rfl rfl rfl rfl hfirst
  | some now =>
    exact hbuild _ rfl rfl rfl rfl rfl rfl
      (hfirst.trans (detectTimeThresholdLoss_same _ _ _ _))

lemma applyAck_ok {sent : SentPacketTracker} {next : Nat} (hwf : sent.WF next) {ack : AckFrame}
    (hnames : sent.Names ack) :
    ∃ acked sent', applyAck sent ack = .ok (acked, sent') ∧ sent'.WF next ∧
      (∀ n, sent.Sent n → sent'.Sent n) ∧ ∀ bound, SentPacketTracker.Later bound sent sent' := by
  unfold applyAck
  rcases hnames.applyAckDetailed hwf with ⟨acked, sent', hok⟩ | ⟨hcounts, hfail, herr⟩
  · obtain ⟨hwf', hsent, hlater⟩ := applyAckDetailed_wf hwf hok
    rw [hok]
    exact ⟨acked, sent', rfl, hwf', fun n hn => (hsent n).mpr hn, hlater⟩
  -- The counters do not add up: the ACK is taken without them.
  rw [herr]
  unfold applyAckWithEcnFailure
  rw [if_neg (by simp [hcounts, hfail])]
  obtain ⟨acked, sent', hok⟩ := hnames.plain.applyAckDetailed_plain hwf rfl
  obtain ⟨hwf', hsent, hlater⟩ := applyAckDetailed_wf hwf hok
  rw [hok]
  have hsame : SentPacketTracker.SameNumbers sent' { sent' with ecnValidationFailed := true } :=
    SentPacketTracker.SameNumbers.of_packets rfl rfl rfl rfl rfl
  refine ⟨acked, _, rfl, hsame.wf hwf', fun n hn => (hsame.sent n).mpr ((hsent n).mpr hn), ?_⟩
  intro bound
  exact (hlater bound).trans (hsame.later bound)

/-- **An ACK of packets that were sent, with a delay that decodes when it is needed, applies.** -/
theorem receiveAck_ok (hwf : c.sent.WF c.nextPacketNumber) {ack : AckFrame} (nowNs : Option Nat)
    (hnames : c.sent.Names ack) (hdelay : nowNs ≠ none → c.sent.sampledSentTime ack ≠ none →
      decodeAckDelayNanos ack.ackDelay c.frameConfig.peerAckDelayExponent ≠ none) :
    ∃ c', c.receiveAck est ack nowNs = (.ok (), c') ∧ Advance c c' := by
  have hrtt : ∃ m, c.updateRttFromAckAt est ack nowNs = .ok { c with metrics := m } := by
    cases nowNs with
    | none => exact ⟨c.metrics, rfl⟩
    | some now =>
      unfold updateRttFromAckAt updateRttFromAck ackRttSample
      cases hsamp : c.sent.sampledSentTime ack with
      | none => exact ⟨c.metrics, rfl⟩
      | some time =>
        obtain ⟨nanos, hnanos⟩ := Option.ne_none_iff_exists'.mp
          (hdelay (by simp) (by rw [hsamp]; simp))
        simp [hnanos]
  obtain ⟨m, hm⟩ := hrtt
  obtain ⟨acked, sent', hok, hwf', hsent, hlater⟩ := applyAck_ok hwf hnames
  obtain ⟨rs, hrs, -⟩ := hnames
  have hadvance := settleAck_advance (c := { c with metrics := m }) est ack nowNs acked hwf' hsent
    hlater
  unfold receiveAck
  rw [hm]
  simp only
  rw [hok]
  unfold RecoveryQueue.applyAck
  rw [hrs]
  exact ⟨_, rfl, hadvance.frameConfig, hadvance.streams, hadvance.peerIds, hadvance.localIds,
    hadvance.path, hadvance.next, hadvance.wf, hadvance.sent, hadvance.later⟩

lemma receiveAck_error {ack : AckFrame} {nowNs : Option Nat}
    (hdelay : ¬ (nowNs ≠ none → c.sent.sampledSentTime ack ≠ none →
      decodeAckDelayNanos ack.ackDelay c.frameConfig.peerAckDelayExponent ≠ none)) :
    ∃ e, c.receiveAck est ack nowNs = (.error e, c) := by
  simp only [Classical.not_imp, not_not] at hdelay
  obtain ⟨hnow, hsamp, hnone⟩ := hdelay
  obtain ⟨now, rfl⟩ := Option.ne_none_iff_exists'.mp hnow
  obtain ⟨time, htime⟩ := Option.ne_none_iff_exists'.mp hsamp
  unfold receiveAck updateRttFromAckAt updateRttFromAck ackRttSample
  simp [htime, hnone]

end Connection

end Netz.Quic
