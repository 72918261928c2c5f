/-
Every run of the sent tracker.

Over a run that sends ascending packet numbers the caches answer as scans would, and the
numbers the tracker knows are those the run sent and did not forget, whatever has been
retired since.  An ACK is accepted exactly when it names only such numbers and its ECN
counters pass, and one that is refused changes nothing.
-/
import Netz.Lib.Machine
import Netz.Proofs.SentEdits

namespace Netz.Quic.IndexedTracker

open Lib List SentPacketTracker

/-- A step of a run with what it returned. -/
abbrev Step := Event IndexedTracker Op Reply

def sentNumbers (ops : List Op) : List Nat := ops.filterMap Op.sends

/-- The number that a forget took out. -/
def forgottenBy (e : Step) : Option Nat :=
  match e.input, e.output with
  | .forget n, .found true => some n
  | _, _ => none

def forgottenNumbers (history : List Step) : List Nat := history.filterMap forgottenBy

/-- Packet numbers are QUIC packet numbers and ascend over the run. -/
def Ascending (ops : List Op) : Prop :=
  (sentNumbers ops).Pairwise (· < ·) ∧ ∀ n ∈ sentNumbers ops, n ≤ varintMax

/-- What a run has led to: the invariant, and the numbers it knows. -/
structure RunInv (history : List Step) (next : Nat) (t : IndexedTracker) : Prop where
  inv : Inv True t next
  known : ∀ n, t.toSentPacketTracker.Sent n ↔
    n ∈ sentNumbers (history.map (·.input)) ∧ n ∉ forgottenNumbers history
  forgotten : ∀ n ∈ forgottenNumbers history, n < next

variable {history : List Step} {next : Nat} {t : IndexedTracker}

lemma runInv_init : RunInv [] 0 {} := by
  refine ⟨inv_init, ?_, by simp [forgottenNumbers]⟩
  intro n
  simp [Sent, retiredContains, sentNumbers]

/-- A step that neither sends nor forgets, and keeps the numbers. -/
theorem RunInv.quiet (h : RunInv history next t) {op : Op} (hsends : op.sends = none)
    (hforgets : forgottenBy (event step t op) = none)
    (hsent : ∀ n, (step t op).2.toSentPacketTracker.Sent n ↔ t.toSentPacketTracker.Sent n)
    (hinv : Inv True (step t op).2 next) :
    RunInv (history ++ [event step t op]) next (step t op).2 := by
  have hnums : sentNumbers ((history ++ [event step t op]).map (·.input))
      = sentNumbers (history.map (·.input)) := by
    simp [event, hsends, sentNumbers]
  have hgone : forgottenNumbers (history ++ [event step t op]) = forgottenNumbers history := by
    simp [hforgets, forgottenNumbers]
  refine ⟨hinv, ?_, ?_⟩
  · intro n
    rw [hsent n, h.known n, hnums, hgone]
  · rw [hgone]
    exact h.forgotten

lemma RunInv.sent (h : RunInv history next t) (sending : Sending) (indexed : Bool)
    (hnew : next ≤ sending.packetNumber) (hsmall : sending.packetNumber ≤ varintMax) :
    RunInv (history ++ [event step t (.sent sending indexed)]) (sending.packetNumber + 1)
      (step t (.sent sending indexed)).2 := by
  obtain ⟨-, -, hsent, hinv⟩ := sent_spec h.inv indexed hnew hsmall
  have hnums : sentNumbers ((history ++ [event step t (.sent sending indexed)]).map (·.input))
      = sentNumbers (history.map (·.input)) ++ [sending.packetNumber] := by
    unfold sentNumbers
    rw [map_append, filterMap_append]
    rfl
  have hgone : forgottenNumbers (history ++ [event step t (.sent sending indexed)])
      = forgottenNumbers history := by
    simp [forgottenBy, event, forgottenNumbers]
  refine ⟨hinv, ?_, ?_⟩
  · intro n
    show (t.sent sending indexed).2.toSentPacketTracker.Sent n ↔ _
    rw [hsent n, h.known n, hnums, hgone, mem_append, mem_singleton]
    constructor
    · intro hn
      rcases hn with ⟨hin, hout⟩ | heq
      · exact ⟨.inl hin, hout⟩
      refine ⟨.inr heq, ?_⟩
      intro hc
      have := h.forgotten n hc
      omega
    intro hn
    obtain ⟨hin | heq, hout⟩ := hn
    · exact .inl ⟨hin, hout⟩
    · exact .inr heq
  rw [hgone]
  intro n hn
  have := h.forgotten n hn
  omega

lemma RunInv.forget (h : RunInv history next t) (n : Nat) :
    RunInv (history ++ [event step t (.forget n)]) next (step t (.forget n)).2 := by
  rcases forget_spec h.inv n with hnone | ⟨hfound, hinv, index, hn, herased⟩
  · refine h.quiet rfl ?_ ?_ ?_
    · simp [forgottenBy, event, step, hnone]
    · simp [step, hnone]
    · simp only [step, hnone]
      exact h.inv
  have hnums : sentNumbers ((history ++ [event step t (.forget n)]).map (·.input))
      = sentNumbers (history.map (·.input)) := by
    simp [event, Op.sends, sentNumbers]
  have hgone : forgottenNumbers (history ++ [event step t (.forget n)])
      = forgottenNumbers history ++ [n] := by
    simp [forgottenBy, event, step, hfound, forgottenNumbers]
  have hknown : t.toSentPacketTracker.Sent n := .inr (mem_of_getElem? hn)
  refine ⟨hinv, ?_, ?_⟩
  · intro m
    show (t.forget n).2.toSentPacketTracker.Sent m ↔ _
    rw [herased.sent h.inv.wf hn m, h.known m, hnums, hgone, mem_append,
      mem_singleton, not_or, and_assoc]
  rw [hgone]
  intro m hm
  rw [mem_append, mem_singleton] at hm
  rcases hm with hold | heq
  · exact h.forgotten m hold
  · rw [heq]
    exact hknown.lt h.inv.wf

lemma applyAckDetailed_sent (h : Inv True t next) (ack : AckFrame) (n : Nat) :
    (t.applyAckDetailed ack).2.toSentPacketTracker.Sent n ↔ t.toSentPacketTracker.Sent n := by
  have href := applyAckDetailed_refines h ack
  cases hplain : t.toSentPacketTracker.applyAckDetailed ack with
  | error e =>
    rw [hplain] at href
    rw [href]
  | ok result =>
    rw [hplain] at href
    rw [href.2]
    exact (applyAckDetailed_wf h.wf hplain).2.1 n

/-- **Every step keeps the caches right and the known numbers exact.** -/
theorem RunInv.step (h : RunInv history next t) (op : Op) (hnew : ∀ n, op.sends = some n → next ≤ n)
    (hsmall : ∀ n, op.sends = some n → n ≤ varintMax) :
    RunInv (history ++ [event step t op]) (op.sends.elim next (· + 1)) (step t op).2 := by
  cases op with
  | sent sending indexed => exact h.sent sending indexed (hnew _ rfl) (hsmall _ rfl)
  | forget n => exact h.forget n
  | markAcknowledged n =>
    obtain ⟨hsame, hinv⟩ := markAcknowledged_spec h.inv n
    exact h.quiet rfl rfl hsame.sent hinv
  | ack frame =>
    exact h.quiet rfl rfl (applyAckDetailed_sent h.inv frame) (h.inv.applyAckDetailed frame)
  | packetThresholdLoss largest threshold =>
    by_cases hidle : threshold = 0 ∨ largest < threshold
    · refine h.quiet rfl rfl ?_ ?_
      · simp [IndexedTracker.step, detectPacketThresholdLoss, hidle]
      · simp only [IndexedTracker.step, detectPacketThresholdLoss, if_pos hidle]
        exact h.inv
    obtain ⟨-, -, hsame, hinv⟩ := detectLoss_spec h.inv (fun _ => true)
      (ordered_above h.inv (largest - threshold))
    refine h.quiet rfl rfl ?_ ?_
    · simp only [IndexedTracker.step, detectPacketThresholdLoss, if_neg hidle]
      exact hsame.sent
    · simp [IndexedTracker.step, detectPacketThresholdLoss, hidle, hinv]
  | timeThresholdLoss nowNs lossDelayNs largest =>
    obtain ⟨-, -, hsame, hinv⟩ := detectLoss_spec h.inv _ (ordered_time h.inv largest)
    exact h.quiet rfl rfl hsame.sent hinv

lemma exec_runInv {ops : List Op} (hops : Ascending ops) :
    ∃ next, RunInv (trace step {} ops) next (exec step {} ops) := by
  refine trace_induction_ascending step Op.sends (fun op => ∀ n, op.sends = some n → n ≤ varintMax)
    RunInv runInv_init ?_ ops ?_ hops.1
  · intro history next t op h hsmall hnew
    exact h.step op hnew hsmall
  · intro op hop n hn
    exact hops.2 n (mem_filterMap.mpr ⟨op, hop, hn⟩)

/-! ### Fast paths -/

lemma Newest.query {t : IndexedTracker}
    (h : Newest t.packets t.packets.length t.latestAckElicitingInFlightIndex) :
    t.latestAckElicitingInFlightSentTime
      = (t.packets.filterMap SentPacket.ackElicitingInFlightSentTime).max? := by
  have hmem : ∀ time, time ∈ t.packets.filterMap SentPacket.ackElicitingInFlightSentTime ↔
      ∃ j, timeAt t.packets j = some time := by
    intro time
    rw [mem_filterMap]
    constructor
    · intro hp
      obtain ⟨p, hp, htime⟩ := hp
      obtain ⟨j, hj⟩ := mem_iff_getElem?.mp hp
      exact ⟨j, by unfold timeAt; rw [hj]; exact htime⟩
    intro hj
    obtain ⟨j, hj⟩ := hj
    unfold timeAt at hj
    obtain ⟨p, hp, htime⟩ := Option.bind_eq_some_iff.mp hj
    exact ⟨p, mem_of_getElem? hp, htime⟩
  unfold latestAckElicitingInFlightSentTime
  cases hlast : t.latestAckElicitingInFlightIndex with
  | none =>
    rw [hlast] at h
    have hnil : t.packets.filterMap SentPacket.ackElicitingInFlightSentTime = [] := by
      rw [eq_nil_iff_forall_not_mem]
      intro time htime
      obtain ⟨j, hj⟩ := (hmem time).mp htime
      rw [h j (timeAt_lt hj)] at hj
      simp at hj
    rw [hnil]
    rfl
  | some i =>
    rw [hlast] at h
    obtain ⟨-, time, htime, hall⟩ := h
    simp only
    rw [htime]
    symm
    rw [max?_eq_some_iff]
    refine ⟨(hmem time).mpr ⟨i, htime⟩, ?_⟩
    intro other hother
    obtain ⟨j, hj⟩ := (hmem other).mp hother
    exact (hall j other (timeAt_lt hj) hj).1

/-- **The three fast paths answer as the scans of the records do, after every run.** -/
theorem fast_paths_exact (ops : List Op) (hops : Ascending ops) :
    let t := exec step {} ops
    (∀ n, t.findPacketIndex n = t.packets.findIdx? (fun p => p.packetNumber == n)) ∧
    (t.firstUnacknowledgedIndex ≤ t.packets.length ∧
      ∀ p ∈ t.packets.take t.firstUnacknowledgedIndex, p.acknowledged = true) ∧
    t.latestAckElicitingInFlightSentTime
      = (t.packets.filterMap SentPacket.ackElicitingInFlightSentTime).max? ∧
    Newest t.packets t.packets.length t.latestAckElicitingInFlightIndex := by
  intro t
  obtain ⟨next, h⟩ := exec_runInv hops
  refine ⟨?_, ⟨h.inv.cursor.le, ?_⟩, h.inv.newest.query, h.inv.newest⟩
  · intro n
    exact findPacketIndex_eq h.inv.wf h.inv.indexed n
  · intro p hp
    exact h.inv.cursor.of_mem_take le_rfl hp

/-- Three packets, the middle one acknowledged, the newest forgotten. -/
theorem fast_paths_exact_three_packets :
    let t := exec step {}
      [.sent { packetNumber := 0, bytes := 10, sentTimeNs := some 5 } true,
        .sent { packetNumber := 1, bytes := 10, sentTimeNs := some 9 } false,
        .sent { packetNumber := 4, bytes := 10, sentTimeNs := some 7 } true,
        .ack { largestAcknowledged := 1, ackDelay := 0, firstAckRange := 0 }, .forget 4]
    t.findPacketIndex 1 = t.packets.findIdx? (fun p => p.packetNumber == 1) ∧
      t.latestAckElicitingInFlightSentTime = some 5 := by
  intro t
  have h := fast_paths_exact
    [.sent { packetNumber := 0, bytes := 10, sentTimeNs := some 5 } true,
      .sent { packetNumber := 1, bytes := 10, sentTimeNs := some 9 } false,
      .sent { packetNumber := 4, bytes := 10, sentTimeNs := some 7 } true,
      .ack { largestAcknowledged := 1, ackDelay := 0, firstAckRange := 0 }, .forget 4]
    ⟨by decide, by decide⟩
  exact ⟨h.1 1, h.2.2.1.trans (by decide)⟩

end Netz.Quic.IndexedTracker

/-! ### Which ACK frames are accepted

Applying an ACK and the check that runs before a packet is applied decide the same thing about
its ranges: they must not underflow, and must name only packets that were sent.  The check
leaves the ECN counters to the application, which refuses a frame whose counters do not add up
and is then given the frame without them. -/

namespace Netz.Quic

open Lib List

/-! ### One tracker -/

namespace SentPacketTracker

variable {t : SentPacketTracker} {next : Nat}

/-- **An ACK is applied exactly when it names only sent packets and its counters pass.** -/
theorem applyAckDetailed_ok_iff (h : WF t next) (hc : CursorOk t)
    (hbooks : t.sentEct0Count + t.sentEct1Count ≤ next) (ack : AckFrame) :
    (∃ r t', t.applyAckDetailed ack = .ok (r, t')) ↔ Names t ack ∧ EcnAcceptable t ack := by
  constructor
  · intro hok
    obtain ⟨r, t', hok⟩ := hok
    rw [applyAckDetailed_eq] at hok
    obtain ⟨-, hok⟩ := of_guard hok nofun
    obtain ⟨rs, hrs, hok⟩ := bind_eq_ok hok
    obtain ⟨c, hp, hok⟩ := bind_eq_ok hok
    obtain ⟨ecn, hecn, -⟩ := bind_eq_ok hok
    refine ⟨⟨rs, hrs, ?_⟩, (ecnValidation_iff h hc hbooks hrs hp).mp ⟨ecn, hecn⟩⟩
    exact (precheckAckRanges_iff h (decodeAckRanges_chain hrs)).mp ⟨c, hp⟩
  intro hn
  obtain ⟨hnames, hecn⟩ := hn
  rcases hnames.applyAckDetailed h with hok | ⟨-, hfail, -⟩
  · exact hok
  obtain ⟨-, rs, c, hrs, hp⟩ := hnames.precheck h
  obtain ⟨ecn, hvalid⟩ := (ecnValidation_iff h hc hbooks hrs hp).mpr hecn
  simp [hrs, hp, hvalid, validateAckEcnFrameWouldFail] at hfail

lemma validateAckCoversSentPackets_ok_iff (h : WF t next) (ack : AckFrame) :
    t.validateAckCoversSentPackets ack = .ok () ↔ t.packets ≠ [] ∧ Names t ack := by
  constructor
  · intro hok
    refine ⟨?_, names_of_validate h hok⟩
    intro hnil
    simp [hnil, validateAckCoversSentPackets] at hok
  intro hn
  obtain ⟨hne, hnames⟩ := hn
  obtain ⟨-, rs, c, hrs, hp⟩ := hnames.precheck h
  simp [hne, hrs, hp, validateAckCoversSentPackets]

end SentPacketTracker

namespace IndexedTracker

variable {t : IndexedTracker} {next : Nat}

lemma accepted_iff (h : Inv True t next) (ack : AckFrame) :
    (∃ r, (t.applyAckDetailed ack).1 = .ok r) ↔
      t.toSentPacketTracker.Names ack ∧ t.toSentPacketTracker.EcnAcceptable ack := by
  rw [← SentPacketTracker.applyAckDetailed_ok_iff h.wf h.cursor (h.marks trivial)]
  have href := applyAckDetailed_refines h ack
  cases hplain : t.toSentPacketTracker.applyAckDetailed ack with
  | error e =>
    rw [hplain] at href
    rw [href]
    simp
  | ok result =>
    rw [hplain] at href
    exact ⟨fun _ => ⟨result.1, result.2, rfl⟩, fun _ => ⟨result.1, href.1⟩⟩

lemma refused_unchanged (h : Inv True t next) {ack : AckFrame} {e : Error}
    (hfail : (t.applyAckDetailed ack).1 = .error e) : (t.applyAckDetailed ack).2 = t := by
  have href := applyAckDetailed_refines h ack
  cases hplain : t.toSentPacketTracker.applyAckDetailed ack with
  | error e' =>
    rw [hplain] at href
    rw [href]
  | ok result =>
    rw [hplain] at href
    simp [href.1] at hfail

lemma validate_ok_iff (h : Inv True t next) (ack : AckFrame) :
    t.validateAckCoversSentPackets ack = .ok () ↔
      t.packets ≠ [] ∧ t.toSentPacketTracker.Names ack := by
  rw [← SentPacketTracker.validateAckCoversSentPackets_ok_iff h.wf]
  unfold validateAckCoversSentPackets SentPacketTracker.validateAckCoversSentPackets
  cases SentPacketTracker.decodeAckRanges ack with
  | error e => rfl
  | ok rs =>
    simp only
    rewrite [precheckAckRanges_eq h]
    rfl

/-! ### Every run -/

/-- The packet was sent in the run and has not been forgotten. -/
def Known (ops : List Op) (n : Nat) : Prop :=
  n ∈ sentNumbers ops ∧ n ∉ forgottenNumbers (trace step {} ops)

lemma known_iff {ops : List Op} (h : RunInv (trace step {} ops) next (exec step {} ops)) (n : Nat) :
    (exec step {} ops).toSentPacketTracker.Sent n ↔ Known ops n := by
  rw [h.known n, map_input_trace]
  rfl

/--
**After every run an ACK is accepted exactly when its range chain does not underflow, it names
only packets that were sent, and its ECN counters pass; a refused one changes nothing.**
-/
theorem ack_accepted_exactly (ops : List Op) (hops : Ascending ops) (ack : AckFrame) :
    let t := exec step {} ops
    ((∃ r, (t.applyAckDetailed ack).1 = .ok r) ↔
      ack.fits = true ∧ (∀ n, ack.names n = true → Known ops n) ∧
        t.toSentPacketTracker.EcnAcceptable ack) ∧
    (∀ n, Known ops n ↔ t.retiredContains n = true ∨ n ∈ t.packets.map (·.packetNumber)) ∧
    ∀ e, (t.applyAckDetailed ack).1 = .error e → (t.applyAckDetailed ack).2 = t := by
  intro t
  obtain ⟨next, h⟩ := exec_runInv hops
  refine ⟨?_, fun n => (known_iff h n).symm, fun e he => refused_unchanged h.inv he⟩
  rw [accepted_iff h.inv, SentPacketTracker.names_iff h.inv.wf, and_assoc]
  refine and_congr_right fun _ => and_congr_left fun _ => ?_
  exact forall_congr' fun n => imp_congr_right fun _ => known_iff h n

/-- A repeated ACK of two packets, the older of which has been lost. -/
theorem ack_accepted_exactly_repeated :
    ∃ r, ((exec step {}
      [.sent { packetNumber := 3 } true, .sent { packetNumber := 7 } true,
        .timeThresholdLoss 9 1 none, .ack ⟨7, 0, 0, [⟨2, 0⟩], none⟩]).applyAckDetailed
          ⟨7, 0, 0, [⟨2, 0⟩], none⟩).1 = .ok r := by
  refine (ack_accepted_exactly
    [.sent { packetNumber := 3 } true, .sent { packetNumber := 7 } true,
      .timeThresholdLoss 9 1 none, .ack ⟨7, 0, 0, [⟨2, 0⟩], none⟩]
    ⟨by decide, by decide⟩ ⟨7, 0, 0, [⟨2, 0⟩], none⟩).1.mpr ⟨by decide, ?_, ?_⟩
  · intro n hn
    have hcases : n = 7 ∨ n = 3 := by
      simp [AckFrame.names, rangesName, AckRange.depth] at hn
      omega
    rcases hcases with rfl | rfl
    · exact ⟨by decide, by decide⟩
    · exact ⟨by decide, by decide⟩
  · intro counts hcounts
    simp at hcounts

/-- A frame that names one sent packet is refused for counters that no packet was marked for. -/
theorem ack_refused_for_counters :
    let ops : List Op := [.sent { packetNumber := 0 } true]
    let ack : AckFrame := ⟨0, 0, 0, [], some ⟨1, 0, 0⟩⟩
    Ascending ops ∧ ack.fits = true ∧ (∀ n, ack.names n = true → Known ops n) ∧
      ((exec step {} ops).applyAckDetailed ack).1 = .error .invalidAckFrame := by
  refine ⟨⟨by decide, by decide⟩, by decide, ?_, by decide⟩
  intro n hn
  have hzero : n = 0 := by
    simpa [AckFrame.names, rangesName] using hn
  rw [hzero]
  exact ⟨by decide, by decide⟩

/--
**The check before a packet is applied and the application agree on an ACK's ranges**, as long
as some packet is tracked or none has been retired; on the ECN counters only the application
decides.
-/
theorem preflight_agrees (ops : List Op) (hops : Ascending ops) (ack : AckFrame)
    (htracked : (exec step {} ops).packets ≠ [] ∨
      (exec step {} ops).retiredAcknowledgedThrough = none) :
    let t := exec step {} ops
    (t.validateAckCoversSentPackets ack = .ok () ↔
      ∃ r, (t.applyAckDetailed { ack with ecnCounts := none }).1 = .ok r) ∧
    ((∃ r, (t.applyAckDetailed ack).1 = .ok r) ↔
      t.validateAckCoversSentPackets ack = .ok () ∧ t.toSentPacketTracker.EcnAcceptable ack) := by
  intro t
  obtain ⟨next, h⟩ := exec_runInv hops
  have hcovers : t.validateAckCoversSentPackets ack = .ok () ↔ t.toSentPacketTracker.Names ack := by
    rw [validate_ok_iff h.inv]
    refine and_iff_right_of_imp ?_
    intro hnames hnil
    have hnone : t.retiredAcknowledgedThrough = none := by
      rcases htracked with hsome | hnone
      · exact absurd hnil hsome
      · exact hnone
    exact (hnames.precheck h.inv.wf).1 ⟨hnil, hnone⟩
  constructor
  · rw [hcovers, accepted_iff h.inv]
    refine ⟨fun hnames => ⟨hnames.plain, ?_⟩, fun hboth => hboth.1⟩
    intro counts hcounts
    simp at hcounts
  · rw [hcovers, accepted_iff h.inv]

/-- It acknowledges the first 256 packets. -/
def firstAck : AckFrame := ⟨255, 0, 255, [], none⟩

/-- `count` packets are sent, and the first 256 acknowledged at once, which compacts them away. -/
def compactedRun (count : Nat) : List Op :=
  (range count).map (fun n => .sent { packetNumber := n } true) ++ [.ack firstAck]

lemma sentNumbers_compactedRun (count : Nat) : sentNumbers (compactedRun count) = range count := by
  unfold sentNumbers compactedRun
  rw [filterMap_append, filterMap_map]
  exact (append_nil _).trans filterMap_some

lemma compactedRun_ascending {count : Nat} (h : count ≤ varintMax) :
    Ascending (compactedRun count) := by
  unfold Ascending
  rw [sentNumbers_compactedRun]
  exact ⟨pairwise_lt_range, fun n hn => (mem_range.mp hn).le.trans h⟩

/-- The acknowledgement comes again, while a packet behind those that were compacted away is
tracked. -/
theorem preflight_agrees_compacted :
    (exec step {} (compactedRun 257)).validateAckCoversSentPackets firstAck = .ok () ∧
      ∃ r, ((exec step {} (compactedRun 257)).applyAckDetailed firstAck).1 = .ok r := by
  have hok : (exec step {} (compactedRun 257)).validateAckCoversSentPackets firstAck = .ok () := by
    decide +kernel
  have htracked : (exec step {} (compactedRun 257)).packets ≠ [] := by
    intro hnil
    unfold validateAckCoversSentPackets at hok
    rw [if_pos hnil] at hok
    cases hok
  have hascending : Ascending (compactedRun 257) := compactedRun_ascending (by
    unfold varintMax; omega)
  have hagree := preflight_agrees (compactedRun 257) hascending firstAck (.inl htracked)
  obtain ⟨hiff, -⟩ := hagree
  refine ⟨hok, ?_⟩
  exact hiff.mp hok

lemma compactedRun_forgets (count : Nat) :
    forgottenNumbers (trace step {} (compactedRun count)) = [] := by
  refine filterMap_eq_nil_iff.mpr fun e he => ?_
  rcases mem_append.mp (input_mem he) with hsent | hack
  · obtain ⟨n, -, hn⟩ := mem_map.mp hsent
    simp [forgottenBy, ← hn]
  · simp [forgottenBy, mem_singleton.mp hack]

/-- With no packet behind them the check refuses what the application accepts. -/
theorem preflight_refuses_compacted :
    let t := exec step {} (compactedRun 256)
    t.validateAckCoversSentPackets firstAck = .error .invalidAckFrame ∧
      ∃ r, (t.applyAckDetailed firstAck).1 = .ok r := by
  intro t
  have hascending : Ascending (compactedRun 256) := compactedRun_ascending (by
    unfold varintMax; omega)
  obtain ⟨next, h⟩ := exec_runInv hascending
  refine ⟨by decide +kernel, (accepted_iff h.inv _).mpr ⟨⟨[⟨0, 255⟩], by decide, ?_⟩, nofun⟩⟩
  intro n hn
  rw [h.known, compactedRun_forgets, map_input_trace, sentNumbers_compactedRun]
  obtain ⟨r, hr, -, hle⟩ := hn
  rw [mem_singleton.mp hr] at hle
  exact ⟨mem_range.mpr (Nat.lt_succ_of_le hle), not_mem_nil⟩

/-- The check accepts a frame whose ECN counters the application refuses. -/
theorem preflight_passes_bad_counters :
    let t := exec step {} [.sent { packetNumber := 0 } true]
    Ascending [.sent { packetNumber := 0 } true] ∧
      t.validateAckCoversSentPackets ⟨0, 0, 0, [], some ⟨1, 0, 0⟩⟩ = .ok () ∧
      (t.applyAckDetailed ⟨0, 0, 0, [], some ⟨1, 0, 0⟩⟩).1 = .error .invalidAckFrame :=
  ⟨⟨by decide, by decide⟩, by decide, by decide⟩

end IndexedTracker

end Netz.Quic
