/-
ACKs and loss detection on the cached tracker.

An ACK is the plain tracker's ACK.  A loss detection is a map over the records, as an ACK is:
its early exits skip only records that it would leave alone.
-/
import Netz.Proofs.SentCaches

namespace Netz.Quic.IndexedTracker

open Lib SentPacketTracker List Option

variable {counted : Prop} {t : IndexedTracker} {next : Nat}

/-! ### Applying an ACK -/

lemma precheckAckRanges_eq (h : Inv counted t next) (rs : List PacketRange) :
    t.precheckAckRanges rs = t.toSentPacketTracker.precheckAckRanges rs := by
  unfold precheckAckRanges SentPacketTracker.precheckAckRanges
  match rs with
  | [] => rfl
  | [⟨first, last⟩] =>
    simp only
    rewrite [findSentPacket_eq h.wf h.indexed]
    cases t.toSentPacketTracker.findSentPacket first with
    | none | some => rfl
  | _ :: _ :: _ => rfl

lemma noteEcn_effect (t : IndexedTracker) (ack : AckFrame)
    (ecn : SentPacketTracker.EcnAckValidation) (acked : AckResult) :
    (t.noteEcn ack ecn acked).1.bytes = acked.bytes ∧
      ∃ counts largest failed, (t.noteEcn ack ecn acked).2 = { t with
        latestEcnCounts := counts
        ecnLargestAcknowledged := largest
        ecnValidationFailed := failed } := by
  unfold noteEcn
  split <;> split <;> exact ⟨rfl, _, _, _, rfl⟩

lemma noteEcn_plain (t : IndexedTracker) (ack : AckFrame)
    (ecn : SentPacketTracker.EcnAckValidation) (acked : AckResult) :
    ((t.noteEcn ack ecn acked).1, (t.noteEcn ack ecn acked).2.toSentPacketTracker)
      = t.toSentPacketTracker.noted ack ecn acked := by
  unfold noteEcn noted
  cases ack.ecnCounts with
  | some counts => cases ecn.updateCounts <;> rfl
  | none =>
    dsimp only
    split <;> rfl

lemma Inv.noteEcn (h : Inv counted t next) (ack : AckFrame)
    (ecn : SentPacketTracker.EcnAckValidation)
    (acked : AckResult) : Inv counted (t.noteEcn ack ecn acked).2 next := by
  obtain ⟨-, _, _, _, hrest⟩ := noteEcn_effect t ack ecn acked
  rw [hrest]
  exact h.inPlace (SentPacketTracker.SameNumbers.of_packets rfl rfl rfl rfl rfl)
    ⟨h.cursor.le, h.cursor.acknowledged⟩ rfl h.newest rfl rfl

/-- **The ACK of the cached tracker is the ACK of the plain one.** -/
theorem applyAckDetailed_refines (h : Inv counted t next) (ack : AckFrame) :
    match t.toSentPacketTracker.applyAckDetailed ack with
    | .error e => t.applyAckDetailed ack = (.error e, t)
    | .ok (r, t') => (t.applyAckDetailed ack).1 = .ok r ∧
        (t.applyAckDetailed ack).2.toSentPacketTracker = t' := by
  rw [SentPacketTracker.applyAckDetailed_eq]
  unfold applyAckDetailed
  by_cases hempty : t.packets = [] ∧ t.retiredAcknowledgedThrough = none
  · rw [if_pos hempty, if_pos hempty]
  rw [if_neg hempty, if_neg hempty]
  cases decodeAckRanges ack with
  | error e => rfl
  | ok rs =>
    dsimp only [bind, Except.bind]
    rw [precheckAckRanges_eq h]
    cases t.toSentPacketTracker.precheckAckRanges rs with
    | error e => rfl
    | ok c =>
      dsimp only
      cases t.toSentPacketTracker.validateAckEcnFrameDetailedForPrecheck ack c with
      | error e => rfl
      | ok ecn =>
        have hmark : ((if c.newlyAckedPackets ≠ 0 then t.markRanges rs
            else ({}, t)).2.toSentPacketTracker,
            (if c.newlyAckedPackets ≠ 0 then t.markRanges rs else ({}, t)).1)
            = if c.newlyAckedPackets ≠ 0 then t.toSentPacketTracker.markRanges rs
              else (t.toSentPacketTracker, {}) := by
          by_cases hnew : c.newlyAckedPackets ≠ 0
          · simp only [if_pos hnew]
            exact (markRanges_spec h rs).1
          · simp only [if_neg hnew]
        dsimp only
        rw [← hmark, ← noteEcn_plain]
        exact ⟨rfl, compactAcknowledgedPrefix_tracker _⟩

lemma Inv.applyAckDetailed (h : Inv counted t next) (ack : AckFrame) :
    Inv counted (t.applyAckDetailed ack).2 next := by
  unfold IndexedTracker.applyAckDetailed
  split
  · exact h
  split
  · exact h
  split
  · exact h
  split
  · exact h
  simp only
  refine (Inv.noteEcn ?_ ack _ _).compact
  split
  · exact (markRanges_spec h _).2
  · exact h

lemma closeCovered_of_none {l : List SentPacket} {rs : List PacketRange}
    (hnone : weigh (fresh (fun _ => true)) rs l = 0) :
    l.map (closeCovered rs) = l ∧ weigh outstandingBytes rs l = 0 := by
  have hall : ∀ p ∈ l, covered rs p = true → p.acknowledged = true := by
    intro p hp hcov
    have hzero := List.sum_eq_zero_iff_forall_eq_nat.mp hnone _ (List.mem_map.mpr ⟨p, hp, rfl⟩)
    rw [if_pos hcov] at hzero
    by_contra hopen
    simp [fresh, hopen] at hzero
  constructor
  · refine (map_congr_left ?_).trans (map_id l)
    intro p hp
    unfold closeCovered
    by_cases hcov : covered rs p = true
    · rw [if_pos hcov]
      exact close_of_acknowledged (hall p hp hcov)
    · simp [hcov]
  unfold weigh
  apply sum_eq_zero
  intro x hx
  obtain ⟨p, hp, rfl⟩ := mem_map.mp hx
  by_cases hcov : covered rs p = true
  · rw [if_pos hcov]
    exact outstandingBytes_ignoresClosed p (hall p hp hcov)
  · rw [if_neg hcov]

/-- **An accepted ACK closes the covered records, retires some, and reports the bytes that were
outstanding.** -/
theorem applyAckDetailed_effect (h : Inv counted t next) {ack : AckFrame} {r : AckResult}
    (hok : (t.applyAckDetailed ack).1 = .ok r) :
    ∃ rs count, decodeAckRanges ack = .ok rs ∧
      (t.applyAckDetailed ack).2.packets = (t.packets.map (closeCovered rs)).drop count ∧
      (∀ p ∈ (t.packets.map (closeCovered rs)).take count,
        p.acknowledged = true) ∧ r.bytes = weigh outstandingBytes rs t.packets := by
  unfold applyAckDetailed at hok ⊢
  by_cases hempty : t.packets = [] ∧ t.retiredAcknowledgedThrough = none
  · simp [hempty] at hok
  rw [if_neg hempty] at hok ⊢
  cases hrs : decodeAckRanges ack with
  | error e => rw [hrs] at hok; simp at hok
  | ok rs =>
    rw [hrs] at hok
    simp only at hok ⊢
    rw [precheckAckRanges_eq h] at hok ⊢
    cases hc : t.toSentPacketTracker.precheckAckRanges rs with
    | error e => rw [hc] at hok; simp at hok
    | ok c =>
      rw [hc] at hok
      simp only at hok ⊢
      cases hecn : t.toSentPacketTracker.validateAckEcnFrameDetailedForPrecheck ack c with
      | error e => rw [hecn] at hok; simp at hok
      | ok ecn =>
        rw [hecn] at hok
        have hmark : (if c.newlyAckedPackets ≠ 0 then t.markRanges rs
              else ({}, t)).2.packets
              = t.packets.map (closeCovered rs) ∧
            (if c.newlyAckedPackets ≠ 0 then t.markRanges rs else ({}, t)).1.bytes
              = weigh outstandingBytes rs t.packets ∧
            Inv counted (if c.newlyAckedPackets ≠ 0 then t.markRanges rs else ({}, t)).2 next := by
          by_cases hnew : c.newlyAckedPackets ≠ 0
          · simp only [if_pos hnew]
            obtain ⟨hplain, hinv⟩ := markRanges_spec h rs
            obtain ⟨hranges, hbytes⟩ := SentPacketTracker.markRanges_spec h.wf h.cursor rs
            rw [← hplain] at hranges hbytes
            exact ⟨hranges.packets, hbytes, hinv⟩
          simp only [if_neg hnew]
          have hcount := (precheck_counted h.wf h.cursor
            (decodeAckRanges_chain hrs) hc).packets
          have hzero : c.newlyAckedPackets = 0 := by omega
          rw [hzero] at hcount
          obtain ⟨hsame, hnone⟩ := closeCovered_of_none (l := t.packets)
            ((Nat.zero_add _).symm.trans hcount.symm)
          exact ⟨hsame.symm, hnone.symm, h⟩
        generalize (if c.newlyAckedPackets ≠ 0 then t.markRanges rs else ({}, t)) = marked
          at hok hmark ⊢
        obtain ⟨hpkts, hbytes, hinv⟩ := hmark
        obtain ⟨hnb, _, _, _, hrest⟩ := noteEcn_effect marked.2 ack ecn marked.1
        rw [Except.ok.injEq] at hok
        have hr : r.bytes
            = weigh outstandingBytes rs t.packets := by
          rw [← hok, hnb, hbytes]
        have hnoted := hinv.noteEcn ack ecn marked.1
        have hclosed := (congrArg (·.packets) hrest).trans hpkts
        rcases compactAcknowledgedPrefix_cases (marked.2.noteEcn ack ecn marked.1).2 with
          hsame | hdrop
        · refine ⟨rs, 0, rfl, ?_, by simp, hr⟩
          simp [hsame, hclosed]
        obtain ⟨count, hcur, hlen, hp, -⟩ := hdrop
        rw [hclosed] at hp
        refine ⟨rs, count, rfl, hp, ?_, hr⟩
        rw [← hclosed]
        exact fun p hp => hnoted.cursor.of_mem_take hcur hp

/-! ### Losses -/

/-- The record of a packet that is given up. -/
def giveUp (beyond due : SentPacket → Bool) (p : SentPacket) : SentPacket :=
  if !beyond p && p.outstanding && due p then { p with lost := true } else p

/-- The bytes that giving up reports. -/
def givenUpBytes (beyond due : SentPacket → Bool) (p : SentPacket) : Nat :=
  if !beyond p && p.outstanding && due p then p.bytes else 0

/-- Once beyond reach, later records are. -/
def Ordered (beyond : SentPacket → Bool) (l : List SentPacket) : Prop :=
  l.Pairwise (fun p q => beyond p = true → beyond q = true)

lemma lose_bytes (r : AckResult) (p : SentPacket) : (lose r p).bytes = r.bytes + p.bytes := by
  have hobs : ({ r with packets := r.packets + 1 }.observe p).bytes = r.bytes := by
    unfold AckResult.observe
    split
    · rfl
    · rfl
  unfold lose
  simp only [hobs]

lemma giveUp_beyond {beyond : SentPacket → Bool} (due : SentPacket → Bool) {l : List SentPacket}
    (hall : ∀ p ∈ l, beyond p = true) :
    l.map (giveUp beyond due) = l ∧ (l.map (givenUpBytes beyond due)).sum = 0 := by
  constructor
  · exact (map_congr_left (fun p hp => by simp [giveUp, hall p hp])).trans (map_id l)
  rw [map_congr_left (fun p hp => by simp [givenUpBytes, hall p hp] : ∀ p ∈ l,
    givenUpBytes beyond due p = 0)]
  simp

/-- **The scan gives up the due records within reach, and reports their bytes.** -/
theorem lossScan_spec (sorted : Bool) (latest : Option Nat) (beyond due : SentPacket → Bool) :
    ∀ (l : List SentPacket) (index : Nat) (r : AckResult) (cached : Bool),
      (sorted = true → Ordered beyond l) →
      (lossScan sorted latest beyond due index l r cached).packets = l.map (giveUp beyond due) ∧
      (lossScan sorted latest beyond due index l r cached).result.bytes
        = r.bytes + (l.map (givenUpBytes beyond due)).sum ∧
      ((lossScan sorted latest beyond due index l r cached).cachedLatestLost = false →
        cached = false ∧ ∀ k p, l[k]? = some p → latest = some (index + k) →
          giveUp beyond due p = p) := by
  intro l
  induction l with
  | nil =>
    intro index r cached _
    exact ⟨rfl, rfl, fun hflag => ⟨hflag, fun k p hk => by simp at hk⟩⟩
  | cons p rest ih =>
    intro index r cached hord
    have hrest : sorted = true → Ordered beyond rest :=
      fun hs => (pairwise_cons.mp (hord hs)).2
    rw [map_cons, map_cons, sum_cons]
    unfold lossScan
    by_cases hbeyond : beyond p = true
    · rw [if_pos hbeyond]
      have hself : giveUp beyond due p = p := by simp [giveUp, hbeyond]
      have hzero : givenUpBytes beyond due p = 0 := by simp [givenUpBytes, hbeyond]
      rw [hself, hzero]
      by_cases hsorted : sorted = true
      · -- The break: everything after is beyond reach as well.
        rw [if_pos hsorted]
        have hall : ∀ q ∈ rest, beyond q = true :=
          fun q hq => (pairwise_cons.mp (hord hsorted)).1 q hq hbeyond
        obtain ⟨hmap, hsum⟩ := giveUp_beyond due hall
        refine ⟨by rw [hmap], by simp [hsum], ?_⟩
        intro hflag
        refine ⟨hflag, ?_⟩
        intro k q hk _
        have hq : q ∈ p :: rest := mem_of_getElem? hk
        have : beyond q = true := by
          rcases mem_cons.mp hq with hqp | hqr
          · simp [hqp, hbeyond]
          · exact hall q hqr
        simp [giveUp, this]
      rw [if_neg hsorted]
      obtain ⟨ih₁, ih₂, ih₃⟩ := ih (index + 1) r cached hrest
      refine ⟨by simp only [ih₁], by rw [Nat.zero_add]; exact ih₂, ?_⟩
      intro hflag
      obtain ⟨hpre, hlater⟩ := ih₃ hflag
      refine ⟨hpre, ?_⟩
      intro k q hk hlast
      cases k with
      | zero =>
        rw [getElem?_cons_zero, some.injEq] at hk
        simp [← hk, hself]
      | succ k => exact hlater k q hk (by rw [hlast]; congr 1; omega)
    rw [if_neg hbeyond]
    by_cases hdue : (p.outstanding && due p) = true
    · rw [if_pos hdue]
      obtain ⟨ih₁, ih₂, ih₃⟩ := ih (index + 1) (lose r p) (cached || latest == some index) hrest
      have hcond : (!beyond p && p.outstanding && due p) = true := by
        rw [Bool.and_assoc, hdue]
        simpa using hbeyond
      refine ⟨?_, ?_, ?_⟩
      · simp [ih₁, hcond, giveUp]
      · simp only [ih₂]
        unfold givenUpBytes
        rw [if_pos hcond, lose_bytes]
        omega
      intro hflag
      obtain ⟨hpre, hlater⟩ := ih₃ hflag
      rw [Bool.or_eq_false_iff, beq_eq_false_iff_ne] at hpre
      refine ⟨hpre.1, ?_⟩
      intro k q hk hlast
      cases k with
      | zero => exact absurd hlast hpre.2
      | succ k => exact hlater k q hk (by rw [hlast]; congr 1; omega)
    rw [if_neg hdue]
    obtain ⟨ih₁, ih₂, ih₃⟩ := ih (index + 1) r cached hrest
    have hcond : ¬ (!beyond p && p.outstanding && due p) = true := by
      rw [Bool.and_assoc, Bool.and_eq_true]
      exact fun hc => hdue hc.2
    have hself : giveUp beyond due p = p := by simp [hcond, giveUp]
    refine ⟨by simp only [ih₁, hself], ?_, ?_⟩
    · simp [ih₂, hcond, givenUpBytes]
    intro hflag
    obtain ⟨hpre, hlater⟩ := ih₃ hflag
    refine ⟨hpre, ?_⟩
    intro k q hk hlast
    cases k with
    | zero =>
      rw [getElem?_cons_zero, some.injEq] at hk
      simp [← hk, hself]
    | succ k => exact hlater k q hk (by rw [hlast]; congr 1; omega)

lemma giveUp_aged (beyond due : SentPacket → Bool) (p : SentPacket) :
    SentPacketTracker.Aged p (giveUp beyond due p) := by
  unfold giveUp
  split
  · exact ⟨rfl, rfl, rfl, id⟩
  · exact SentPacketTracker.Aged.refl p

lemma giveUp_acknowledged (beyond due : SentPacket → Bool) {p : SentPacket}
    (h : p.acknowledged = true) : giveUp beyond due p = p ∧ givenUpBytes beyond due p = 0 := by
  simp [giveUp, givenUpBytes, SentPacket.outstanding, h]

lemma timeAt_map_giveUp (beyond due : SentPacket → Bool) (packets : List SentPacket) (j : Nat) :
    timeAt (packets.map (giveUp beyond due)) j = none ∨
      timeAt (packets.map (giveUp beyond due)) j = timeAt packets j := by
  unfold timeAt
  rw [getElem?_map]
  cases hp : packets[j]? with
  | none => exact .inl rfl
  | some p =>
    simp only [map_some, bind_some]
    unfold giveUp
    split
    · exact .inl (by simp [SentPacket.ackElicitingInFlightSentTime])
    · exact .inr rfl

lemma scanned_packets (h : Inv counted t next) (beyond due : SentPacket → Bool) :
    t.packets.take t.scanStart ++ (t.packets.drop t.scanStart).map (giveUp beyond due)
      = t.packets.map (giveUp beyond due) ∧
    ((t.packets.drop t.scanStart).map (givenUpBytes beyond due)).sum
      = (t.packets.map (givenUpBytes beyond due)).sum := by
  have hacked : ∀ p ∈ t.packets.take t.scanStart, p.acknowledged = true := by
    intro p hp
    have hstart : t.scanStart = t.firstUnacknowledgedIndex := by simp [h.wf.sorted, scanStart]
    exact h.cursor.of_mem_take hstart.le hp
  have hfront : (t.packets.take t.scanStart).map (giveUp beyond due)
      = t.packets.take t.scanStart :=
    (map_congr_left (fun p hp => (giveUp_acknowledged beyond due (hacked p hp)).1)).trans
      (map_id _)
  have hzero : ((t.packets.take t.scanStart).map (givenUpBytes beyond due)).sum = 0 := by
    rw [map_congr_left (fun p hp => (giveUp_acknowledged beyond due (hacked p hp)).2)]
    simp
  constructor
  · conv_rhs => rw [← take_append_drop t.scanStart t.packets]
    rw [map_append, hfront]
  · conv_rhs => rw [← take_append_drop t.scanStart t.packets]
    rw [map_append, sum_append, hzero, Nat.zero_add]

/-- **A loss detection is a map over the records, and repairs the cache.** -/
theorem detectLoss_spec (h : Inv counted t next) {beyond : SentPacket → Bool}
    (due : SentPacket → Bool) (hord : Ordered beyond t.packets) :
    (t.detectLoss beyond due).2.packets = t.packets.map (giveUp beyond due) ∧
    (t.detectLoss beyond due).1.bytes = (t.packets.map (givenUpBytes beyond due)).sum ∧
    SentPacketTracker.SameNumbers t.toSentPacketTracker
      (t.detectLoss beyond due).2.toSentPacketTracker ∧
        Inv counted (t.detectLoss beyond due).2 next := by
  unfold detectLoss
  by_cases hexit : (t.packetsSortedAscending && t.packets.head?.any beyond) = true
  · rw [if_pos hexit]
    have hall : ∀ p ∈ t.packets, beyond p = true := by
      rw [Bool.and_eq_true] at hexit
      intro p hp
      unfold Ordered at hord
      cases hl : t.packets with
      | nil => rw [hl] at hp; simp at hp
      | cons first rest =>
        rw [hl] at hexit hp hord
        have hfirst : beyond first = true := by simpa using hexit.2
        rcases mem_cons.mp hp with hpf | hpr
        · simp [hpf, hfirst]
        · exact (pairwise_cons.mp hord).1 p hpr hfirst
    obtain ⟨hmap, hsum⟩ := giveUp_beyond due hall
    exact ⟨hmap.symm, hsum.symm, SentPacketTracker.SameNumbers.refl _, h⟩
  rw [if_neg hexit]
  obtain ⟨hpkts, hbytes, hflag⟩ := lossScan_spec t.packetsSortedAscending
    t.latestAckElicitingInFlightIndex beyond due (t.packets.drop t.scanStart) t.scanStart {} false
    (fun _ => hord.sublist (drop_sublist _ _))
  obtain ⟨hwhole, hsum⟩ := scanned_packets h beyond due
  generalize lossScan t.packetsSortedAscending t.latestAckElicitingInFlightIndex beyond due
    t.scanStart (t.packets.drop t.scanStart) {} false = l at hpkts hbytes hflag
  simp only
  rw [hpkts, hwhole]
  have hbytes' : l.result.bytes = (t.packets.map (givenUpBytes beyond due)).sum := by
    rw [hbytes, hsum]
    exact Nat.zero_add _
  have hcur : ({ t with packets := t.packets.map (giveUp beyond due) } :
      IndexedTracker).toSentPacketTracker.CursorOk := by
    constructor
    · simp only [length_map]
      exact h.cursor.le
    intro i q hi hq
    simp only [getElem?_map] at hq
    cases hp : t.packets[i]? with
    | none => rw [hp] at hq; simp at hq
    | some p =>
      have hacked := h.cursor.acknowledged i p hi hp
      rw [hp, map_some, some.injEq, (giveUp_acknowledged beyond due hacked).1] at hq
      rw [← hq]
      exact hacked
  have hsame : SentPacketTracker.SameNumbers t.toSentPacketTracker
      ({ t with packets := t.packets.map (giveUp beyond due) } :
        IndexedTracker).toSentPacketTracker :=
    SentPacketTracker.SameNumbers.of_map rfl (giveUp_aged beyond due) rfl rfl rfl rfl
  by_cases hcached : l.cachedLatestLost = true
  · rw [if_pos hcached]
    exact ⟨rfl, hbytes', hsame,
      h.inPlace hsame hcur rfl (Newest.recompute h.wf.sorted hcur) rfl rfl⟩
  rw [if_neg hcached]
  refine ⟨rfl, hbytes', hsame, h.inPlace hsame hcur rfl ?_ rfl rfl⟩
  simp only [length_map]
  refine h.newest.shrink ?_ (timeAt_map_giveUp beyond due t.packets)
  intro i hi
  unfold timeAt
  rw [getElem?_map]
  cases hp : t.packets[i]? with
  | none => rfl
  | some p =>
    have hstay : giveUp beyond due p = p := by
      by_cases hlow : i < t.scanStart
      · have hstart : t.scanStart = t.firstUnacknowledgedIndex := by simp [h.wf.sorted, scanStart]
        exact (giveUp_acknowledged beyond due
          (h.cursor.acknowledged i p (by omega) hp)).1
      refine (hflag (by simpa using hcached)).2 (i - t.scanStart) p ?_ ?_
      · rw [getElem?_drop, show t.scanStart + (i - t.scanStart) = i by omega, hp]
      rw [hi]
      congr 1
      omega
    rw [map_some, hstay]

lemma ordered_above (h : Inv counted t next) (bound : Nat) :
    Ordered (fun p => decide (bound < p.packetNumber)) t.packets := by
  have hasc := h.wf.ascending
  rw [pairwise_map] at hasc
  refine hasc.imp ?_
  intro p q hpq hp
  simp only [decide_eq_true_eq] at hp ⊢
  omega

lemma ordered_time (h : Inv counted t next) (largest : Option Nat) :
    Ordered (fun p => largest.any (fun bound => decide (bound < p.packetNumber))) t.packets := by
  cases largest with
  | none =>
    have hasc := h.wf.ascending
    rw [pairwise_map] at hasc
    exact hasc.imp (fun _ hp => by simp at hp)
  | some bound => exact ordered_above h bound

end Netz.Quic.IndexedTracker
