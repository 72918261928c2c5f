/-
Bytes in flight are reported once.

A packet leaves flight when an ACK names it or a loss detection gives it up, whichever comes
first; what either reports are the bytes of the packets that leave flight there.  `Settles`
says that of one step.  Over a run the reports and the bytes still in flight add up to the
bytes sent, and no packet is in two reports.
-/
import Netz.Proofs.SentRuns

namespace Netz.Quic.IndexedTracker

open Lib SentPacketTracker List

/-! ### What a step reports -/

def ackedBytes (e : Step) : Nat :=
  match e.output with
  | .acked (.ok r) => r.bytes
  | _ => 0

def lostBytes (e : Step) : Nat :=
  match e.output with
  | .lost r => r.bytes
  | _ => 0

/-- The bytes an operation puts in flight. -/
def Op.inFlightBytes : Op → Nat
  | .sent sending _ => if sending.inFlight then sending.bytes else 0
  | _ => 0

/-- The operations whose effect on the bytes in flight is reported. -/
def Op.reported : Op → Bool
  | .forget _ => false
  | .markAcknowledged _ => false
  | _ => true

/-- The packets that were in flight before the step and are not after it. -/
def settled (e : Step) : List SentPacket :=
  e.pre.packets.filter fun p =>
    p.outstanding && !e.post.packets.any fun q => q.packetNumber == p.packetNumber && q.outstanding

lemma bytesInFlight_eq (t : IndexedTracker) :
    t.stats.bytesInFlight = (t.packets.map outstandingBytes).sum := by
  unfold stats
  simp only
  induction t.packets with
  | nil => rfl
  | cons p rest ih =>
    by_cases hp : p.outstanding = true
    · rw [filter_cons_of_pos hp, map_cons, sum_cons, ih, map_cons]
      simp [outstandingBytes, hp]
    · rw [filter_cons_of_neg hp, ih, map_cons]
      simp [outstandingBytes, hp]

/-- The bytes of the records in flight that `taken` picks. -/
def takenBytes (taken : SentPacket → Bool) (l : List SentPacket) : Nat :=
  (l.map (fun p => if taken p then outstandingBytes p else 0)).sum

/-- The step takes the picked records out of flight, reports them, and drops only records
that are not in flight. -/
structure Settles (e : Step) (taken : SentPacket → Bool) : Prop where
  effect : ∃ (f : SentPacket → SentPacket) (count : Nat),
    e.post.packets = (e.pre.packets.map f).drop count ∧
    (∀ p, (f p).packetNumber = p.packetNumber) ∧ (∀ p, (f p).bytes = p.bytes) ∧
    (∀ p, (f p).outstanding = (p.outstanding && !taken p)) ∧
    ∀ q ∈ (e.pre.packets.map f).take count, q.outstanding = false
  reports : ackedBytes e + lostBytes e = takenBytes taken e.pre.packets

lemma Settles.idle {e : Step} (hpost : e.post = e.pre) (hacked : ackedBytes e = 0)
    (hlost : lostBytes e = 0) : Settles e (fun _ => false) := by
  refine ⟨⟨id, 0, by simp [hpost], fun _ => rfl, fun _ => rfl, by simp, by simp⟩, ?_⟩
  rw [hacked, hlost]
  simp [takenBytes]

lemma Inv.packet_unique {t : IndexedTracker} {next : Nat} (h : Inv True t next) {p q : SentPacket}
    (hp : p ∈ t.packets) (hq : q ∈ t.packets) (heq : p.packetNumber = q.packetNumber) : p = q :=
  inj_on_of_nodup_map (h.wf.ascending.imp (fun hlt => Nat.ne_of_lt hlt)) hp hq heq

namespace Settles

variable {e : Step} {taken : SentPacket → Bool} {next : Nat}

/-- **What was in flight is reported or still in flight.** -/
theorem balance (h : Settles e taken) :
    e.pre.stats.bytesInFlight = ackedBytes e + lostBytes e + e.post.stats.bytesInFlight := by
  obtain ⟨f, count, hpost, -, hbytes, hout, hdrop⟩ := h.effect
  have hzero : (((e.pre.packets.map f).take count).map outstandingBytes).sum
      = 0 := by
    apply sum_eq_zero
    intro x hx
    obtain ⟨q, hq, rfl⟩ := mem_map.mp hx
    simp [outstandingBytes, hdrop q hq]
  have hall : (e.post.packets.map outstandingBytes).sum
      = ((e.pre.packets.map f).map outstandingBytes).sum := by
    conv_rhs => rw [← take_append_drop count (e.pre.packets.map f)]
    rw [hpost, map_append, sum_append, hzero, Nat.zero_add]
  rw [bytesInFlight_eq, bytesInFlight_eq, h.reports, hall, map_map]
  unfold takenBytes
  rw [← sum_map_add]
  congr 1
  refine map_congr_left ?_
  intro p _
  simp only [Function.comp_apply, outstandingBytes, hout p, hbytes p]
  by_cases htaken : taken p = true
  · simp [htaken]
  · simp [htaken]

/-- What is in flight after the step was in flight before and was not taken. -/
theorem still (h : Settles e taken) {q : SentPacket} (hq : q ∈ e.post.packets)
    (hout : q.outstanding = true) :
    ∃ p ∈ e.pre.packets, p.packetNumber = q.packetNumber ∧ p.outstanding = true ∧
      taken p = false := by
  obtain ⟨f, count, hpost, hnum, -, hopen, -⟩ := h.effect
  rw [hpost] at hq
  obtain ⟨p, hp, rfl⟩ := mem_map.mp (mem_of_mem_drop hq)
  rw [hopen p, Bool.and_eq_true, Bool.not_eq_true'] at hout
  exact ⟨p, hp, (hnum p).symm, hout.1, hout.2⟩

lemma settled_eq (h : Settles e taken) (hinv : Inv True e.pre next) :
    settled e = e.pre.packets.filter (fun p => p.outstanding && taken p) := by
  obtain ⟨f, count, hpost, hnum, -, hopen, hdrop⟩ := h.effect
  unfold settled
  refine filter_congr ?_
  intro p hp
  by_cases hout : p.outstanding = true
  · rw [hout, Bool.true_and, Bool.true_and]
    by_cases htaken : taken p = true
    · -- A record of its number in flight afterwards would be the record itself.
      rw [htaken, Bool.not_eq_true', any_eq_false]
      intro q hq hboth
      rw [Bool.and_eq_true, beq_iff_eq] at hboth
      obtain ⟨p', hp', hn, -, hkept⟩ := h.still hq hboth.2
      have hsame := hinv.packet_unique hp' hp (hn.trans hboth.1)
      rw [hsame, htaken] at hkept
      simp at hkept
    have hfree : taken p = false := by simpa using htaken
    have hstill : (f p).outstanding = true := by rw [hopen p, hout, hfree]; rfl
    have hmem : f p ∈ e.post.packets := by
      rw [hpost]
      have hin : f p ∈ e.pre.packets.map f := mem_map.mpr ⟨p, hp, rfl⟩
      rw [← take_append_drop count (e.pre.packets.map f), mem_append] at hin
      rcases hin with hfront | hback
      · simp [hdrop _ hfront] at hstill
      · exact hback
    rw [hfree, Bool.not_eq_false', any_eq_true]
    exact ⟨f p, hmem, by simp [hnum p, hstill]⟩
  · simp [hout]

lemma settled_bytes (h : Settles e taken) (hinv : Inv True e.pre next) :
    ackedBytes e + lostBytes e = ((settled e).map (·.bytes)).sum := by
  rw [h.reports, h.settled_eq hinv]
  unfold takenBytes
  induction e.pre.packets with
  | nil => rfl
  | cons p rest ih =>
    rw [map_cons, sum_cons, ih]
    by_cases hout : p.outstanding = true
    · by_cases htaken : taken p = true
      · simp [outstandingBytes, hout, htaken]
      · simp [htaken]
    · simp [outstandingBytes, hout]

end Settles

/-! ### Each operation -/

section Operations

variable {t : IndexedTracker} {next : Nat}

lemma ack_settles (h : Inv True t next) {frame : AckFrame} {r : AckResult}
    (hok : (t.applyAckDetailed frame).1 = .ok r) :
    Settles (event step t (.ack frame)) (fun p => frame.names p.packetNumber) := by
  obtain ⟨rs, count, hrs, hpost, hdrop, hbytes⟩ := applyAckDetailed_effect h hok
  have hnames : (fun p : SentPacket => frame.names p.packetNumber)
      = covered rs := by
    funext p
    exact ((decodeAckRanges_names hrs).2 p.packetNumber).symm
  rw [hnames]
  refine ⟨⟨closeCovered rs, count, hpost, closeCovered_packetNumber rs, ?_, ?_, ?_⟩, ?_⟩
  · intro p
    unfold closeCovered
    split
    · rfl
    · rfl
  · intro p
    unfold closeCovered
    by_cases hcov : covered rs p = true
    · simp [hcov, SentPacket.outstanding, close]
    · simp [hcov]
  · intro q hq
    simp [SentPacket.outstanding, hdrop q hq]
  show (match (step t (.ack frame)).1 with
    | .acked (.ok r) => r.bytes
    | _ => 0) + 0 = _
  simp only [step, hok, hbytes]
  exact Nat.add_zero _

lemma loss_settles (h : Inv True t next) {beyond : SentPacket → Bool} (due : SentPacket → Bool)
    (hord : Ordered beyond t.packets) {op : Op}
    (hstep : step t op = (.lost (t.detectLoss beyond due).1, (t.detectLoss beyond due).2)) :
    Settles (event step t op) (fun p => !beyond p && due p) := by
  obtain ⟨hpost, hbytes, -, -⟩ := detectLoss_spec h due hord
  have hboth : ∀ p : SentPacket, (!beyond p && p.outstanding && due p)
      = (p.outstanding && (!beyond p && due p)) := by
    intro p
    rw [Bool.and_comm (!beyond p), Bool.and_assoc]
  refine ⟨⟨giveUp beyond due, 0, ?_, ?_, ?_, ?_, by simp⟩, ?_⟩
  · simp [event, hstep, hpost]
  · exact fun p => (giveUp_aged beyond due p).number
  · intro p
    unfold giveUp
    split
    · rfl
    · rfl
  · intro p
    unfold giveUp
    rw [hboth p]
    by_cases hout : p.outstanding = true
    · by_cases htaken : (!beyond p && due p) = true
      · rw [hout, htaken]
        simp [SentPacket.outstanding]
      · simp [Bool.eq_false_iff.mpr htaken]
    · simp [hout]
  have hreport : ackedBytes (event step t op) + lostBytes (event step t op)
      = (t.detectLoss beyond due).1.bytes := by simp [ackedBytes, lostBytes, event, hstep]
  rw [hreport, hbytes]
  unfold takenBytes
  congr 1
  refine map_congr_left ?_
  intro p _
  unfold givenUpBytes outstandingBytes
  by_cases hout : p.outstanding = true
  · simp [hout]
  · simp [hout]

/-- **Every reported operation but a send settles some records.** -/
theorem step_settles (h : Inv True t next) {op : Op} (hreported : op.reported = true)
    (hsends : op.sends = none) : ∃ taken, Settles (event step t op) taken := by
  cases op with
  | sent sending indexed => simp [Op.sends] at hsends
  | forget | markAcknowledged => simp [Op.reported] at hreported
  | ack frame =>
    cases hres : (t.applyAckDetailed frame).1 with
    | ok r => exact ⟨_, ack_settles h hres⟩
    | error e =>
      have href := applyAckDetailed_refines h frame
      have hsame : (t.applyAckDetailed frame).2 = t := by
        cases hplain : t.toSentPacketTracker.applyAckDetailed frame with
        | error e' =>
          rw [hplain] at href
          rw [href]
        | ok result =>
          rw [hplain] at href
          simp [href.1] at hres
      refine ⟨_, Settles.idle hsame ?_ ?_⟩
      · simp [ackedBytes, event, step, hres]
      · simp [lostBytes, event, step]
  | packetThresholdLoss largest threshold =>
    by_cases hidle : threshold = 0 ∨ largest < threshold
    · have hstep : step t (.packetThresholdLoss largest threshold) = (.lost {}, t) := by
        simp only [step, detectPacketThresholdLoss, if_pos hidle]
      refine ⟨_, Settles.idle ?_ ?_ ?_⟩
      · simp [event, hstep]
      · simp [ackedBytes, event, hstep]
      · simp [lostBytes, event, hstep]
    · refine ⟨_, loss_settles h (fun _ => true) (ordered_above h (largest - threshold)) ?_⟩
      simp only [step, detectPacketThresholdLoss, if_neg hidle]
  | timeThresholdLoss nowNs lossDelayNs largest =>
    exact ⟨_, loss_settles h _ (ordered_time h largest) rfl⟩

end Operations

/-! ### Every run -/

/-- The books of a run: every byte sent is in one report or in flight, and a packet that has
been reported is out of flight for good. -/
structure BooksInv (history : List Step) (next : Nat) (t : IndexedTracker) : Prop where
  inv : Inv True t next
  balance : (history.map ackedBytes).sum + (history.map lostBytes).sum + t.stats.bytesInFlight
    = ((history.map (·.input)).map Op.inFlightBytes).sum
  once : ((history.flatMap settled).map (·.packetNumber)).Nodup
  gone : ∀ n ∈ (history.flatMap settled).map (·.packetNumber),
    n < next ∧ ∀ p ∈ t.packets, p.packetNumber = n → p.outstanding = false
  pre : ∀ e ∈ history, ∃ bound, Inv True e.pre bound ∧ e = event step e.pre e.input ∧
    e.input.reported = true ∧ ∀ n, e.input.sends = some n → bound ≤ n ∧ n ≤ varintMax

variable {history : List Step} {next : Nat} {t : IndexedTracker}

lemma booksInv_init : BooksInv [] 0 {} :=
  ⟨inv_init, rfl, by simp, by simp, by simp⟩

/-- The books after a step whose reports and flight balance. -/
theorem BooksInv.extend (h : BooksInv history next t) {op : Op} {next' : Nat} (hle : next ≤ next')
    (hinv : Inv True (step t op).2 next')
    (hpre : op.reported = true ∧ ∀ n, op.sends = some n → next ≤ n ∧ n ≤ varintMax)
    (hbalance : ackedBytes (event step t op) + lostBytes (event step t op)
      + (step t op).2.stats.bytesInFlight = t.stats.bytesInFlight + op.inFlightBytes)
    (hold : ∀ p ∈ (step t op).2.packets, p.outstanding = true →
      (∃ q ∈ t.packets, q.packetNumber = p.packetNumber ∧ q.outstanding = true) ∨
        next ≤ p.packetNumber)
    (hlow : ∀ p ∈ settled (event step t op), p.packetNumber < next ∧ p ∈ t.packets ∧
      p.outstanding = true ∧
      ∀ q ∈ (step t op).2.packets, q.packetNumber = p.packetNumber → q.outstanding = false)
    (hdist : ((settled (event step t op)).map (·.packetNumber)).Nodup) :
    BooksInv (history ++ [event step t op]) next' (step t op).2 := by
  have hinput : (event step t op).input = op := rfl
  refine ⟨hinv, ?_, ?_, ?_, ?_⟩
  · have := h.balance
    simp only [map_append, map_cons, map_nil, sum_append, sum_cons,
      sum_nil, hinput]
    omega
  · rw [flatMap_append, map_append, nodup_append]
    simp only [flatMap_cons, flatMap_nil, append_nil]
    refine ⟨h.once, hdist, ?_⟩
    intro a ha b hb heq
    obtain ⟨p, hp, rfl⟩ := mem_map.mp hb
    obtain ⟨-, hmem, hout, -⟩ := hlow p hp
    have := (h.gone a ha).2 p hmem heq.symm
    rw [hout] at this
    simp at this
  · intro n hn
    rw [flatMap_append, map_append, mem_append] at hn
    simp only [flatMap_cons, flatMap_nil, append_nil] at hn
    rcases hn with hearlier | hnow
    · obtain ⟨hlt, hnot⟩ := h.gone n hearlier
      refine ⟨by omega, ?_⟩
      intro p hp heq
      rw [Bool.eq_false_iff]
      intro hout
      rcases hold p hp hout with ⟨q, hq, hnum, hqout⟩ | hnew
      · simp [hnot q hq (hnum.trans heq)] at hqout
      · omega
    obtain ⟨p, hp, rfl⟩ := mem_map.mp hnow
    obtain ⟨hlt, -, -, hnot⟩ := hlow p hp
    exact ⟨by omega, fun q hq heq => hnot q hq heq⟩
  intro e he
  rw [mem_append, mem_singleton] at he
  rcases he with hearlier | hnow
  · exact h.pre e hearlier
  · rw [hnow]
    exact ⟨next, h.inv, rfl, hpre.1, hpre.2⟩

lemma sent_quiet (h : Inv True t next) {sending : Sending} (indexed : Bool)
    (hnew : next ≤ sending.packetNumber) (hsmall : sending.packetNumber ≤ varintMax) :
    settled (event step t (.sent sending indexed)) = [] ∧
      ackedBytes (event step t (.sent sending indexed)) = 0 ∧
      lostBytes (event step t (.sent sending indexed)) = 0 := by
  obtain ⟨-, hpkts, -, -⟩ := sent_spec h indexed hnew hsmall
  refine ⟨?_, by simp [ackedBytes, event, step], by simp [lostBytes, event, step]⟩
  unfold settled
  rw [filter_eq_nil_iff]
  intro p hp
  by_cases hout : p.outstanding = true
  · have hany : (event step t (.sent sending indexed)).post.packets.any
        (fun q => q.packetNumber == p.packetNumber && q.outstanding) = true := by
      rw [any_eq_true]
      refine ⟨p, ?_, by simp [hout]⟩
      show p ∈ (t.sent sending indexed).2.packets
      rw [hpkts]
      exact mem_append_left _ hp
    simp [hany]
  · simp [hout]

lemma BooksInv.sent (h : BooksInv history next t) (sending : Sending) (indexed : Bool)
    (hnew : next ≤ sending.packetNumber) (hsmall : sending.packetNumber ≤ varintMax) :
    BooksInv (history ++ [event step t (.sent sending indexed)]) (sending.packetNumber + 1)
      (step t (.sent sending indexed)).2 := by
  obtain ⟨-, hpkts, -, hinv⟩ := sent_spec h.inv indexed hnew hsmall
  have hpost : (step t (.sent sending indexed)).2.packets = t.packets ++ [sending.packet] := hpkts
  obtain ⟨hnone, hacked, hlost⟩ := sent_quiet h.inv indexed hnew hsmall
  refine h.extend (by omega) hinv ⟨rfl, ?_⟩ ?_ ?_ ?_ ?_
  · intro n hn
    simp only [Op.sends, Option.some.injEq] at hn
    omega
  · rw [bytesInFlight_eq, bytesInFlight_eq, hpost, map_append, sum_append]
    have hbytes : outstandingBytes sending.packet
        = Op.inFlightBytes (.sent sending indexed) := by
      unfold outstandingBytes SentPacket.outstanding Sending.packet
        Op.inFlightBytes
      by_cases hin : sending.inFlight = true
      · simp [hin]
      · simp [hin]
    simp only [map_cons, map_nil, sum_cons, sum_nil]
    omega
  · intro p hp hout
    rw [hpost, mem_append, mem_singleton] at hp
    rcases hp with hearlier | hnow
    · exact .inl ⟨p, hearlier, rfl, hout⟩
    · rw [hnow]
      exact .inr hnew
  · rw [hnone]
    simp
  · rw [hnone]
    simp

lemma BooksInv.settle (h : BooksInv history next t) {op : Op} (hreported : op.reported = true)
    (hsends : op.sends = none) (hinv : Inv True (step t op).2 next) :
    BooksInv (history ++ [event step t op]) next (step t op).2 := by
  obtain ⟨taken, hs⟩ := step_settles h.inv hreported hsends
  have hsettled := hs.settled_eq h.inv
  have hmem : ∀ p ∈ settled (event step t op),
      p ∈ t.packets ∧ p.outstanding = true ∧ taken p = true := by
    intro p hp
    rw [hsettled, mem_filter, Bool.and_eq_true] at hp
    exact hp
  refine h.extend le_rfl hinv ⟨hreported, by simp [hsends]⟩ ?_ ?_ ?_ ?_
  · have hzero : op.inFlightBytes = 0 := by
      cases op with
      | sent sending indexed => simp [Op.sends] at hsends
      | _ => rfl
    have := hs.balance
    rw [hzero]
    exact this.symm
  · intro p hp hout
    obtain ⟨q, hq, hnum, hqout, -⟩ := hs.still hp hout
    exact .inl ⟨q, hq, hnum, hqout⟩
  · intro p hp
    obtain ⟨hin, hout, htaken⟩ := hmem p hp
    refine ⟨h.inv.wf.below _ (mem_map.mpr ⟨p, hin, rfl⟩), hin, hout, ?_⟩
    intro q hq heq
    rw [Bool.eq_false_iff]
    intro hqout
    obtain ⟨p', hp', hn, -, hkept⟩ := hs.still hq hqout
    simp [h.inv.packet_unique hp' hin (hn.trans heq), htaken] at hkept
  have hnodup : (t.packets.map (·.packetNumber)).Nodup :=
    h.inv.wf.ascending.imp (fun hlt => Nat.ne_of_lt hlt)
  exact hnodup.sublist (filter_sublist.map _)

lemma BooksInv.step (h : BooksInv history next t) {op : Op} (hreported : op.reported = true)
    (hsmall : ∀ n, op.sends = some n → n ≤ varintMax) (hnew : ∀ n, op.sends = some n → next ≤ n) :
    BooksInv (history ++ [event step t op]) (op.sends.elim next (· + 1)) (step t op).2 := by
  cases op with
  | sent sending indexed => exact h.sent sending indexed (hnew _ rfl) (hsmall _ rfl)
  | forget | markAcknowledged => simp [Op.reported] at hreported
  | ack frame => exact h.settle rfl rfl (h.inv.applyAckDetailed frame)
  | packetThresholdLoss largest threshold =>
    refine h.settle rfl rfl ?_
    by_cases hidle : threshold = 0 ∨ largest < threshold
    · simp only [IndexedTracker.step, detectPacketThresholdLoss, if_pos hidle]
      exact h.inv
    · simp only [IndexedTracker.step, detectPacketThresholdLoss, if_neg hidle]
      exact (detectLoss_spec h.inv _ (ordered_above h.inv _)).2.2.2
  | timeThresholdLoss nowNs lossDelayNs largest =>
    exact h.settle rfl rfl (detectLoss_spec h.inv _ (ordered_time h.inv largest)).2.2.2

lemma exec_booksInv {ops : List Op} (hops : Ascending ops)
    (hreported : ∀ op ∈ ops, op.reported = true) :
    ∃ next, BooksInv (trace step {} ops) next (exec step {} ops) := by
  refine trace_induction_ascending IndexedTracker.step Op.sends
    (fun op => op.reported = true ∧ ∀ n, op.sends = some n → n ≤ varintMax)
    BooksInv booksInv_init ?_ ops ?_ hops.1
  · intro history next t op h hop hnew
    exact h.step hop.1 hop.2 hnew
  · intro op hop
    exact ⟨hreported op hop, fun n hn => hops.2 n (mem_filterMap.mpr ⟨op, hop, hn⟩)⟩

/-- Each step of the run reports the bytes of the packets that leave flight in it. -/
theorem BooksInv.reports (h : BooksInv history next t) {e : Step} (he : e ∈ history) :
    ackedBytes e + lostBytes e = ((settled e).map (·.bytes)).sum := by
  obtain ⟨bound, hinv, heq, hreported, hsends⟩ := h.pre e he
  by_cases hop : e.input.sends = none
  · obtain ⟨taken, hs⟩ := step_settles hinv hreported hop
    rw [← heq] at hs
    exact hs.settled_bytes hinv
  cases hinput : e.input with
  | sent sending indexed =>
    rw [hinput] at hsends heq
    obtain ⟨hnew, hsmall⟩ := hsends sending.packetNumber rfl
    obtain ⟨hnone, hacked, hlost⟩ := sent_quiet hinv indexed hnew hsmall
    rw [heq, hnone, hlost]
    rfl
  | _ => rw [hinput] at hop; simp [Op.sends] at hop

lemma BooksInv.acked (h : BooksInv history next t) {e : Step} (he : e ∈ history)
    {frame : AckFrame} {r : AckResult} (hinput : e.input = .ack frame)
    (houtput : e.output = .acked (.ok r)) :
    settled e = e.pre.packets.filter (fun p => p.outstanding && frame.names p.packetNumber) := by
  obtain ⟨bound, hinv, heq, -, -⟩ := h.pre e he
  rw [hinput] at heq
  have hok : (e.pre.applyAckDetailed frame).1 = .ok r := by
    have houtput' : (event IndexedTracker.step e.pre (.ack frame)).output = .acked (.ok r) := by
      rw [← heq]
      exact houtput
    simpa [event, IndexedTracker.step] using houtput'
  have hs := ack_settles hinv hok
  rw [← heq] at hs
  exact hs.settled_eq hinv

/--
**Every byte sent in flight is reported once or is still in flight.**  The packets in the
reports of a run are distinct, a report holds the bytes of the packets that leave flight in
its step, and an ACK of packets that were lost or acknowledged before reports none.
-/
theorem bytes_reported_once (ops : List Op) (hops : Ascending ops)
    (hreported : ∀ op ∈ ops, op.reported = true) :
    let history := trace step {} ops
    (history.map ackedBytes).sum + (history.map lostBytes).sum
        + (exec step {} ops).stats.bytesInFlight = (ops.map Op.inFlightBytes).sum ∧
    ((history.flatMap settled).map (·.packetNumber)).Nodup ∧
    (∀ e ∈ history, ackedBytes e + lostBytes e = ((settled e).map (·.bytes)).sum) ∧
    (∀ e ∈ history, ∀ frame r, e.input = .ack frame → e.output = .acked (.ok r) → settled e
        = e.pre.packets.filter (fun p => p.outstanding && frame.names p.packetNumber)) ∧
    (∀ e ∈ history, ∀ frame, e.input = .ack frame →
      (∀ p ∈ e.pre.packets, frame.names p.packetNumber = true →
        p.lost = true ∨ p.acknowledged = true) → ackedBytes e = 0) := by
  intro history
  obtain ⟨next, h⟩ := exec_booksInv hops hreported
  refine ⟨?_, h.once, fun e he => h.reports he, fun e he frame r hi ho => h.acked he hi ho, ?_⟩
  · have hbalance := h.balance
    rw [map_input_trace] at hbalance
    exact hbalance
  intro e he frame hinput hclosed
  cases houtput : e.output with
  | acked result =>
    cases result with
    | error err => simp [ackedBytes, houtput]
    | ok r =>
      have hnone : settled e = [] := by
        rw [h.acked he hinput houtput, filter_eq_nil_iff]
        intro p hp hboth
        rw [Bool.and_eq_true] at hboth
        rcases hclosed p hp hboth.2 with hlost | hacked
        · simp [SentPacket.outstanding, hlost] at hboth
        · simp [SentPacket.outstanding, hacked] at hboth
      have hsum := h.reports he
      rw [hnone] at hsum
      simp only [map_nil, sum_nil] at hsum
      omega
  | sent | found | lost => simp [ackedBytes, houtput]

/-- Three packets, one lost and then acknowledged late, one acknowledged, one in flight. -/
theorem bytes_reported_once_three_packets :
    let ops : List Op := [.sent { packetNumber := 0, bytes := 100 } true,
      .sent { packetNumber := 4, bytes := 20 } true, .sent { packetNumber := 5, bytes := 3 } true,
      .packetThresholdLoss 4 3, .ack ⟨4, 0, 0, [⟨2, 0⟩], none⟩]
    ((trace step {} ops).map ackedBytes).sum = 20 ∧ ((trace step {} ops).map lostBytes).sum = 100 ∧
      20 + 100 + (exec step {} ops).stats.bytesInFlight = 123 := by
  intro ops
  have hacked : ((trace step {} ops).map ackedBytes).sum = 20 := by decide
  have hlost : ((trace step {} ops).map lostBytes).sum = 100 := by decide
  have h := (bytes_reported_once ops ⟨by decide, by decide⟩ (by decide)).1
  exact ⟨hacked, hlost, h⟩

end Netz.Quic.IndexedTracker
