/-
A batch of packets: what it had to get past, and what is left in the accounts when the socket took
the first of them.

`sendManyProgressAt` checks all its packets against one state of the connection, sizes them one
after the other, takes credit for all of them at once, tracks them, and gives everything back for
those that did not leave.  What is left is what `Took` says of the packets that left.
-/
import Netz.Proofs.PacketTaken
import Netz.Proofs.SendOne

namespace Netz.Quic.Sender

open List

variable {B : Type} {s t u : Sender B} (k : Books B)

/-! ### The checks of the frames -/

lemma preflightFrames_ready {frames : List Frame} {payload : Bytes}
    (h : s.preflightFrames k frames = .ready payload) :
    (∀ frame ∈ frames, s.validateOutboundFrame frame = .ok () ∧
      k.checkStream s.books frame = .granted) ∧ encodeFrames k frames = .ok payload := by
  induction frames generalizing payload with
  | nil =>
    cases h
    exact ⟨by simp, rfl⟩
  | cons frame rest ih =>
    unfold preflightFrames at h
    cases hvalid : s.validateOutboundFrame frame with
    | error e => simp [hvalid] at h
    | ok _ =>
      rw [hvalid] at h
      cases hcheck : k.checkStream s.books frame with
      | refused | blocked => simp [hcheck] at h
      | granted =>
        rw [hcheck] at h
        cases hbytes : k.frameBytes frame with
        | error e => simp [hbytes] at h
        | ok bytes =>
          rw [hbytes] at h
          cases hrest : s.preflightFrames k rest with
          | refused | blocked => simp [hrest] at h
          | ready others =>
            rw [hrest] at h
            cases h
            obtain ⟨hall, henc⟩ := ih hrest
            constructor
            · intro f hf
              rcases mem_cons.mp hf with rfl | hf
              · exact ⟨hvalid, hcheck⟩
              · exact hall f hf
            unfold encodeFrames
            rw [hbytes, henc]
            rfl

/-- A packet whose frames have been looked at. -/
structure Checked (s : Sender B) (frames : List Frame) (payload : Bytes) : Prop where
  nonempty : frames ≠ []
  valid : ∀ frame ∈ frames, s.validateOutboundFrame frame = .ok ()
  streams : ∀ frame ∈ frames, k.checkStream s.books frame = .granted
  payload : encodeFrames k frames = .ok payload

variable {packets : List (List Frame)} {payloads : List (List Frame × Bytes)} {nowNs : Nat}
  {planned : List PreparedPacket} {a : Attempt}

lemma preflightPackets_ready (h : s.preflightPackets k packets = .ready payloads) :
    payloads.map (·.1) = packets ∧ ∀ entry ∈ payloads, Checked k s entry.1 entry.2 := by
  induction packets generalizing payloads with
  | nil =>
    cases h
    exact ⟨rfl, by simp⟩
  | cons frames rest ih =>
    cases frames with
    | nil => cases h
    | cons frame frames =>
      unfold preflightPackets at h
      cases hframes : s.preflightFrames k (frame :: frames) with
      | refused | blocked => simp [hframes] at h
      | ready payload =>
        rw [hframes] at h
        cases hrest : s.preflightPackets k rest with
        | refused | blocked => simp [hrest] at h
        | ready others =>
          rw [hrest] at h
          cases h
          obtain ⟨hmap, hall⟩ := ih hrest
          obtain ⟨hchecks, henc⟩ := preflightFrames_ready k hframes
          refine ⟨by rw [map_cons, hmap], ?_⟩
          intro entry hent
          rcases mem_cons.mp hent with rfl | hent
          · exact ⟨cons_ne_nil _ _, fun f hf => (hchecks f hf).1,
              fun f hf => (hchecks f hf).2, henc⟩
          · exact hall entry hent

/-! ### The sizes -/

/-- The packet is numbered and sized after those before it, and was admitted behind them. -/
structure Fits (s : Sender B) (nowNs : Nat) (before : List PreparedPacket) (p : PreparedPacket) :
    Prop where
  number : p.packetNumber = s.nextPacketNumber + before.length
  numberLen : p.packetNumberLen = packetNumberLenForPayload p.packetNumber
    (k.largestAcknowledged s.books) p.payload.length
  len : shortPacketLen s.peerConnectionId p.packetNumber p.packetNumberLen p.payload
    = .ok p.packetLen
  size : p.packetLen ≤ s.currentSendDatagramSize k
  admitted : k.admitPacket s.books nowNs before p = .admitted

lemma fits_stop (nowNs : Nat) (payloads : List (List Frame × Bytes))
    (planned : List PreparedPacket) :
    ∃ more, planned = planned ++ more ∧ more.map (fun p => (p.frames, p.payload)) <+: payloads ∧
      ∀ before p after, more = before ++ p :: after → Fits k s nowNs (planned ++ before) p := by
  simp

lemma planPackets_fits {packets : List PreparedPacket}
    (h : s.planPackets k nowNs planned payloads = .ready packets) :
    ∃ more, packets = planned ++ more ∧
      more.map (fun p => (p.frames, p.payload)) <+: payloads ∧
      ∀ before p after, more = before ++ p :: after → Fits k s nowNs (planned ++ before) p := by
  induction payloads generalizing planned with
  | nil =>
    cases h
    exact fits_stop k nowNs [] _
  | cons head rest ih =>
    unfold planPackets at h
    dsimp only at h
    split at h
    · cases h
    rename_i packetLen hlen
    split at h
    · cases h
    rename_i hsize
    split at h
    · rename_i hadmit
      obtain ⟨more, hpkts, hinit, hfits⟩ := ih h
      refine ⟨_ :: more, by rw [hpkts, append_assoc]; rfl, ?_, ?_⟩
      · rw [map_cons]
        exact cons_prefix_cons.mpr ⟨rfl, hinit⟩
      intro before p after hsplit
      cases before with
      | nil =>
        cases hsplit
        rw [append_nil]
        exact ⟨rfl, rfl, hlen, not_lt.mp hsize, hadmit⟩
      | cons first before =>
        cases hsplit
        have hlater := hfits before p after rfl
        rw [append_assoc] at hlater
        exact hlater
    · cases h
    · split at h
      · cases h
      · cases h
        exact fits_stop k nowNs _ _
    split at h
    · cases h
    · cases h
      exact fits_stop k nowNs _ _

/-- **What is known of a planned batch.** -/
structure Planned (s : Sender B) (nowNs : Nat) (packets : List (List Frame))
    (planned : List PreparedPacket) : Prop where
  frames : planned.map PreparedPacket.frames <+: packets
  checked : ∀ p ∈ planned, Checked k s p.frames p.payload
  fits : ∀ before p after, planned = before ++ p :: after → Fits k s nowNs before p
  budget : planned.length ≤ s.aeadBudget

lemma planBatch_ready
    (hkeys : ¬ (s.needsKeyUpdate = true ∧ (s.config.aeadConfidentialityLimit = 0 ∨
      s.pendingKeyUpdateAckThreshold ≠ none))) (h : s.planBatch k packets a = .ready planned) :
    Planned k s a.nowNs packets planned := by
  unfold planBatch at h
  dsimp only at h
  split at h
  · cases h
  split at h
  · cases h
  split at h
  · cases h
  · cases h
  rename_i payloads hpreflight
  obtain ⟨hmap, hchecked⟩ := preflightPackets_ready k hpreflight
  obtain ⟨more, hplan, hinit, hfits⟩ := planPackets_fits k h
  subst hplan
  have hframes : planned.map PreparedPacket.frames
      <+: packets.take (s.encryptable (min packets.length maxBatchPackets)) := by
    have hfirst := hinit.map Prod.fst
    rw [map_map, hmap] at hfirst
    exact hfirst
  refine ⟨hframes.trans (List.take_prefix _ _), ?_, ?_, ?_⟩
  · intro p hp
    exact hchecked _ (hinit.subset (mem_map_of_mem hp))
  · intro before p after hsplit
    have hone := hfits before p after hsplit
    exact hone
  have hlen := hframes.length_le
  rw [length_map, length_take] at hlen
  unfold encryptable at hlen
  unfold aeadBudget
  by_cases hupdate : s.needsKeyUpdate = true
  · have hpend : s.pendingKeyUpdateAckThreshold = none := by
      by_contra hsome
      exact hkeys ⟨hupdate, .inr hsome⟩
    rw [if_pos hupdate] at hlen
    rw [if_pos hpend]
    omega
  · rw [if_neg hupdate] at hlen
    omega

lemma Planned.numbers (h : Planned k s nowNs packets planned) :
    planned.map PreparedPacket.packetNumber = range' s.nextPacketNumber planned.length := by
  refine ext_getElem (by simp) (fun i h₁ h₂ => ?_)
  rw [length_map] at h₁
  have hsplit : planned = planned.take i ++ planned[i] :: planned.drop (i + 1) := by
    rw [getElem_cons_drop, take_append_drop]
  have hone := (h.fits _ _ _ hsplit).number
  rw [getElem_map, getElem_range', hone, length_take, Nat.min_eq_left h₁.le]
  omega

/-! ### The whole call -/

/-- **A batch that is not blocked fails with nothing done, or is planned and sent.**  What is
blocked never answers with progress. -/
theorem sendManyProgressAt_cases {first : List Frame} {rest : List (List Frame)}
    {delivery : BatchDelivery} {result : Except Error BatchSendResult}
    (hdone : s.handshakeStatus.needsHandshakeDone = false)
    (hblocked : (∃ r, result = .ok r) ∨ ∀ control e,
      s.planBatch k (first :: rest) { a with ecn := .notEct } ≠ .blocked control e)
    (h : s.sendManyProgressAt k (first :: rest) a delivery = (result, t)) :
    ((∃ e, result = .error e) ∧ t.books = s.books ∧ t.wire = s.wire ∧
      t.nextPacketNumber = s.nextPacketNumber) ∨
    (¬ (s.closeInfo = true ∨ s.idleTimedOut = true) ∧
      ∃ planned, Planned k s a.nowNs (first :: rest) planned ∧ PacketsPlanned s planned ∧
        s.sendPackets k planned s.needsKeyUpdate { a with ecn := .notEct } delivery = (result, t)) := by
  unfold sendManyProgressAt at h
  dsimp only at h
  by_cases hclosed : s.closeInfo = true ∨ s.idleTimedOut = true
  · rw [if_pos hclosed] at h
    cases h
    exact .inl ⟨⟨_, rfl⟩, rfl, rfl, rfl⟩
  rw [if_neg hclosed, if_neg (by rw [hdone]; simp)] at h
  cases hnum : s.validateNextPacketNumber with
  | error e =>
    rw [hnum] at h
    cases h
    exact .inl ⟨⟨_, rfl⟩, rfl, rfl, rfl⟩
  | ok _ =>
    rw [hnum] at h
    by_cases hkeys : s.needsKeyUpdate = true ∧ (s.config.aeadConfidentialityLimit = 0 ∨
      s.pendingKeyUpdateAckThreshold ≠ none)
    · rw [if_pos hkeys] at h
      cases h
      exact .inl ⟨⟨_, rfl⟩, rfl, rfl, rfl⟩
    rw [if_neg hkeys] at h
    cases hplan : s.planBatch k (first :: rest) { a with ecn := .notEct } with
    | refused e =>
      rw [hplan] at h
      cases h
      exact .inl ⟨⟨_, rfl⟩, rfl, rfl, rfl⟩
    | blocked control e =>
      rcases hblocked with ⟨r, rfl⟩ | hnever
      · rw [hplan] at h
        unfold sendBatchBlocked at h
        rcases hsend : s.sendBlocked k control e { a with ecn := .notEct } with ⟨e' | _, u⟩
        · simp [hsend] at h
        · simp [hsend] at h
      · exact absurd hplan (hnever control e)
    | ready planned =>
      rw [hplan] at h
      exact .inr ⟨hclosed, planned, planBatch_ready k hkeys hplan, planBatch_planned k hplan, h⟩

end Netz.Quic.Sender

namespace Netz.Quic

open Lib PreparedPacket SendAccounts Sender List StreamTable

namespace StreamTable

lemma noteSentStreams_append (t : StreamTable) (xs ys : List Frame) :
    t.noteSentStreams (xs ++ ys) = (t.noteSentStreams xs).noteSentStreams ys := by
  induction xs generalizing t with
  | nil => rfl
  | cons frame rest ih =>
    cases frame with
    | stream f =>
      rw [cons_append, noteSentStreams, noteSentStreams]
      cases t.findSendStreamEntry f.streamId with
      | none => exact ih t
      | some entry => exact ih _
    | _ => exact ih t

end StreamTable

namespace SendAccounts

open Recovery.Queue

variable {P M : Type} {b b₁ b₂ : SendAccounts P M} {pace : Pacing P M} {a : Attempt}

/-! ### Tracking all packets -/

/-- Each packet found room for its group. -/
def EachTracked (b : SendAccounts P M) (record : PreparedPacket → SentPacket)
    (packets : List PreparedPacket) : Prop :=
  ∀ before p after, packets = before ++ p :: after → (record p).ackEliciting = true →
    p.payload ≠ [] ∧
    b.recovery.nextGroupId + (eliciting (recordsOf record before)).length + 1 ≤ maxU64

variable {next : Nat} {packets : List PreparedPacket}

lemma sealPackets_recorded {s u : Sender (SendAccounts P M)} (ht : s.books.Tracked next)
    (hnums : packets.map packetNumber = range' next packets.length)
    (hsmall : ∀ p ∈ packets, p.packetNumber ≤ varintMax) {result : Option Error}
    {sealed : List ShortPacket} (h : s.sealPackets (books pace) a packets = (result, sealed, u)) :
    Recorded s.books u.books (recordsOf (batchRecord · a) (packets.take sealed.length)) ∧
      EachTracked s.books (batchRecord · a) (packets.take sealed.length) := by
  have hnone : ∀ c : SendAccounts P M, EachTracked c (batchRecord · a) [] := by
    intro c before p after hsplit
    exact absurd (congrArg length hsplit) (by simp)
  induction packets generalizing s next sealed with
  | nil =>
    cases h
    exact ⟨Recorded.refl ht.sound, hnone _⟩
  | cons p rest ih =>
    rw [map_cons, length_cons, range'_succ, cons.injEq] at hnums
    obtain ⟨hnum, hrest⟩ := hnums
    have hsmallp : next ≤ varintMax := hnum ▸ hsmall p (mem_cons_self ..)
    unfold sealPackets at h
    rcases htrack : s.books.trackPacket (batchRecord p a) p.payload with ⟨e | group, b'⟩
    · have hbatched : (books pace).trackBatched s.books (batchRecord p a)
          p.payload = (.error e, b') := by
        show s.books.trackBatched (batchRecord p a) p.payload = _
        simp [htrack, trackBatched]
      rw [hbatched] at h
      cases h
      have hsame : b' = s.books := ht.trackPacket_error hnum hsmallp htrack
      rw [hsame]
      exact ⟨Recorded.refl ht.sound, hnone _⟩
    have hbatched : (books pace).trackBatched s.books (batchRecord p a)
        p.payload = (.ok (), b') := by
      show s.books.trackBatched (batchRecord p a) p.payload = _
      simp [htrack, trackBatched]
    rw [hbatched] at h
    dsimp only at h
    rcases hseal : (({ s with books := b' } : Sender (SendAccounts P M)).sealShortPacket
      p.packetNumber p.packetNumberLen p.payload).sealPackets (books pace) a rest
      with ⟨result', sealed', v⟩
    rw [hseal] at h
    cases h
    obtain ⟨hone, hcan⟩ := trackPacket_recorded ht.sound htrack
    have ht' : b'.Tracked (next + 1) := ht.trackPacket_next hnum hsmallp htrack
    obtain ⟨hlater, heach⟩ := ih ht' hrest
      (fun q hq => hsmall q (mem_cons_of_mem _ hq)) hseal
    refine ⟨hone.trans hlater, ?_⟩
    intro before q after hsplit hack
    cases before with
    | nil =>
      obtain ⟨rfl, -⟩ := cons.inj hsplit
      exact hcan hack
    | cons first before =>
      obtain ⟨rfl, hafter⟩ := cons.inj hsplit
      obtain ⟨hpay, hroom⟩ := heach before q after hafter hack
      refine ⟨hpay, ?_⟩
      have hroom' : b'.recovery.nextGroupId
          + (eliciting (recordsOf (batchRecord · a) before)).length + 1 ≤ maxU64 := hroom
      rw [hone.queue.next] at hroom'
      have hboth : recordsOf (batchRecord · a) (p :: before) = [(batchRecord p a, p.payload)] ++
            recordsOf (batchRecord · a) before := rfl
      rw [hboth, eliciting_append, length_append, ← Nat.add_assoc]
      exact hroom'

/-! ### Noting and forgetting -/

lemma notePackets_eq (nowNs : Nat) (b : SendAccounts P M)
    (packets : List (PreparedPacket × ShortPacket))
    (hlen : ∀ q ∈ packets, q.2.length = q.1.packetLen) :
    notePackets (books pace) nowNs b packets = { b with
        pacer := b.simulatedPacer pace nowNs (pacedLengths (packets.map Prod.fst))
        streams := b.streams.noteSentStreams (framesOf (packets.map Prod.fst)) } := by
  unfold notePackets
  induction packets generalizing b with
  | nil => rfl
  | cons q rest ih =>
    rw [foldl_cons, ih _ (fun r hr => hlen r (mem_cons_of_mem _ hr))]
    have hone : (books pace).noteSentStreams
        ((books pace).notePacketSent b q.2 nowNs (packetInFlight q.1.frames)) q.1.frames
        = { b with
            pacer := b.simulatedPacer pace nowNs (pacedLengths [q.1])
            streams := b.streams.noteSentStreams q.1.frames } := by
      show (b.notePacketSent pace q.2 nowNs (packetInFlight q.1.frames)).noteSentStreams
        q.1.frames = _
      rw [notePacketSent_pacer pace b q.2 nowNs q.1 (hlen q (mem_cons_self ..))]
      rfl
    have hpaced : pacedLengths ((q :: rest).map Prod.fst) =
        pacedLengths [q.1] ++ pacedLengths (rest.map Prod.fst) :=
      pacedLengths_append [q.1] (rest.map Prod.fst)
    have hframes : framesOf ((q :: rest).map Prod.fst) =
        q.1.frames ++ framesOf (rest.map Prod.fst) := rfl
    rw [hone, hpaced, hframes, noteSentStreams_append]
    unfold simulatedPacer
    rw [foldl_append]

lemma untrackPackets_eq (b : SendAccounts P M) (packets : List PreparedPacket) :
    untrackPackets (books pace) a b packets = { b with
        sent := (packets.map packetNumber).foldl (fun t n => (t.forget n).2) b.sent
        recovery := (packets.map packetNumber).foldl
          (fun q n => (q.forgetPacketNumber n).2) b.recovery } := by
  unfold untrackPackets
  induction packets generalizing b with
  | nil => rfl
  | cons p rest ih =>
    rw [foldl_cons, ih]
    rfl

/-! ### What is left -/

/-- The packets carry new numbers in order. -/
structure Numbered (next : Nat) (packets : List PreparedPacket) : Prop where
  ascending : (packets.map packetNumber).Pairwise (· < ·)
  new : ∀ p ∈ packets, next ≤ p.packetNumber
  small : ∀ p ∈ packets, p.packetNumber ≤ varintMax

lemma Numbered.sublist {xs ys : List PreparedPacket} (h : Numbered next ys)
    (hsub : xs.Sublist ys) : Numbered next xs :=
  ⟨h.ascending.sublist (hsub.map _), fun p hp => h.new p (hsub.subset hp),
    fun p hp => h.small p (hsub.subset hp)⟩

lemma Numbered.fresh (h : Numbered next packets) {record : PreparedPacket → SentPacket}
    (hnum : ∀ p, (record p).packetNumber = p.packetNumber) (hecn : ∀ p, (record p).ecn = .notEct) :
    IndexedTracker.Fresh next (packets.map (fun p => (record p).sending)) where
  ascending := by
    have hsame : (packets.map (fun p => (record p).sending)).map (·.packetNumber) =
        packets.map packetNumber := by
      rw [map_map]
      exact map_congr_left (fun p _ => hnum p)
    rw [hsame]
    exact h.ascending
  new := by
    intro s hs
    obtain ⟨p, hp, rfl⟩ := mem_map.mp hs
    exact (h.new p hp).trans (Nat.le_of_eq (hnum p).symm)
  small := by
    intro s hs
    obtain ⟨p, hp, rfl⟩ := mem_map.mp hs
    exact (Nat.le_of_eq (hnum p)).trans (h.small p hp)
  plain := by
    intro s hs
    obtain ⟨p, hp, rfl⟩ := mem_map.mp hs
    exact hecn p

/-- A packet that asks for no acknowledgement is unknown to the queue. -/
theorem Recorded.unknown (ht : b.Tracked next) (hnums : Numbered next packets)
    (h : Recorded b b₂ (recordsOf (batchRecord · a) packets)) {p : PreparedPacket}
    (hp : p ∈ packets) (hplain : (batchRecord p a).ackEliciting = false) :
    p.packetNumber ∉ b₂.recovery.numbers := by
  intro hmem
  have hnodup : (packets.map packetNumber).Nodup :=
    hnums.ascending.imp (fun hlt => Nat.ne_of_lt hlt)
  unfold Recovery.Queue.numbers at hmem
  rw [h.queue.pending, flatMap_append, groupsFrom_numbers, mem_append] at hmem
  rcases hmem with hold | hnew
  · have hlt := ht.queueNumbers _ hold
    have hge := hnums.new p hp
    omega
  unfold eliciting recordsOf at hnew
  rw [map_map, mem_map] at hnew
  obtain ⟨r, hr, hnum⟩ := hnew
  obtain ⟨hr, hack⟩ := mem_filter.mp hr
  obtain ⟨q, hq, rfl⟩ := mem_map.mp hr
  have hsame : q = p := inj_on_of_nodup_map hnodup hq hp hnum
  simp [hsame, hplain] at hack

/-- Forgetting the packets that did not leave keeps the records of those that did. -/
lemma settled_sent (ht : b.Tracked next) (hsmall : next ≤ varintMax + 1) (hecn : a.ecn = .notEct)
    {sent tracked : List PreparedPacket} (hnums : Numbered next (sent ++ tracked))
    (hbefore : b₁.sent = b.sent) (hroom : b₁.indexRoom = b.indexRoom)
    (hrec : Recorded b₁ b₂ (recordsOf (batchRecord · a) (sent ++ tracked))) :
    (tracked.map packetNumber).foldl (fun t n => (t.forget n).2) b₂.sent =
      IndexedTracker.sentAll b.indexRoom b.sent
        (sent.map (fun p => (batchRecord p a).sending)) := by
  have hfresh : IndexedTracker.Fresh next
      ((sent ++ tracked).map (fun p => (batchRecord p a).sending)) :=
    hnums.fresh (fun _ => rfl) (fun _ => hecn)
  rw [map_append] at hfresh
  have hall := (ht.kept hsmall).forgetAll_sentAll b.indexRoom hfresh
  rw [map_map] at hall
  rw [← hall, hrec.sent, hroom, hbefore, ← map_append]
  unfold recordsOf
  rw [map_map]
  rfl

/-- **Giving back what belongs to the packets that did not leave.** -/
theorem took_of_settled (ht : b.Tracked next) (hsmall : next ≤ varintMax + 1)
    (hecn : a.ecn = .notEct) (sent tracked more : List PreparedPacket)
    (hnums : Numbered next (sent ++ tracked))
    (hcharged : BatchCharged b b₁ (sent ++ (tracked ++ more)))
    (hrec : Recorded b₁ b₂ (recordsOf (batchRecord · a) (sent ++ tracked))) (nowNs : Nat) :
    Took pace nowNs (batchRecord · a) b
      (releaseBatch
        { b₂ with
          pacer := b₂.simulatedPacer pace nowNs (pacedLengths sent)
          streams := b₂.streams.noteSentStreams (framesOf sent)
          sent := (tracked.map packetNumber).foldl (fun t n => (t.forget n).2) b₂.sent
          recovery := (tracked.map packetNumber).foldl
            (fun q n => (q.forgetPacketNumber n).2) b₂.recovery }
        (tracked ++ more)) sent := by
  have hsentBefore : b₁.sent = b.sent := by rw [hcharged.rest]
  have hqueueBefore : b₁.recovery = b.recovery := by rw [hcharged.rest]
  have hroom : b₁.indexRoom = b.indexRoom := by rw [hcharged.rest]
  have hstreams : b₂.streams = b₁.streams := by rw [hrec.rest]
  have ht₁ : b₁.Tracked next := Tracks.congr ht hsentBefore hqueueBefore
  -- The queue.
  have hgroups : b₂.recovery.pending = (b.recovery.pending ++ groupsFrom b.recovery.nextGroupId
        (eliciting (recordsOf (batchRecord · a) sent))) ++ groupsFrom (b.recovery.nextGroupId +
          (eliciting (recordsOf (batchRecord · a) sent)).length)
        (eliciting (recordsOf (batchRecord · a) tracked)) := by
    rw [hrec.queue.pending, hqueueBefore, recordsOf_append, eliciting_append, groupsFrom_append,
      append_assoc]
  obtain ⟨hsound, hfront, -⟩ := hrec.queue.sound.forgetAll hgroups (fun r hr hplain => by
    obtain ⟨p, hp, rfl⟩ := mem_map.mp hr
    exact Recorded.unknown ht₁ hnums hrec (mem_append_right _ hp) hplain)
  have hsame : (recordsOf (batchRecord · a) tracked).map (·.1.packetNumber)
      = tracked.map packetNumber := by
    unfold recordsOf
    rw [map_map]
    rfl
  rw [hsame] at hsound hfront
  -- The streams.
  have hnoted := noteSentStreams_changes b₁.streams (framesOf sent)
  have hreleased := releaseStreams_changes
    (b₁.streams.noteSentStreams (framesOf sent)) (framesOf (tracked ++ more))
  have hknown : ∀ j, b₁.streams.findSendStreamEntry j = none →
      j ∉ streamIdsOf (framesOf (sent ++ (tracked ++ more))) := by
    intro j hnone hmem
    have hsome := (hcharged.streams.known j).mpr (.inr hmem)
    simp [hnone] at hsome
  have hsplit : ∀ j, j ∉ streamIdsOf (framesOf (sent ++ (tracked ++ more))) →
      j ∉ streamIdsOf (framesOf sent) ∧ j ∉ streamIdsOf (framesOf (tracked ++ more)) := by
    simp [framesOf_append, streamIdsOf]
  unfold releaseBatch
  exact
    { entries := fun j => by
        rw [hstreams]
        show ((b₁.streams.noteSentStreams (framesOf sent)).releaseStreams
          (framesOf (tracked ++ more))).sendEntry j = _
        rw [hreleased.sendEntry ?_ j, hnoted.sendEntry ?_ j, hcharged.streams.entries j,
          framesOf_append sent (tracked ++ more)]
        · exact sentOn_prefix j (framesOf sent) (framesOf (tracked ++ more)) _
        · intro i hnone
          exact foldl_noteOn_absent (hsplit i (hknown i hnone)).1 _
        intro i hnone
        rw [hnoted.entries i, Option.map_eq_none_iff] at hnone
        have hzero := streamBytes_absent (hsplit i (hknown i hnone)).2
        rw [hzero]
        rfl
      known := fun j hj => by
        rw [hstreams]
        show (((b₁.streams.noteSentStreams (framesOf sent)).releaseStreams
          (framesOf (tracked ++ more))).findSendStreamEntry j).isSome = true
        rw [hreleased.known j, hnoted.known j]
        exact (hcharged.streams.known j).mpr (.inl hj)
      table := by
        rw [hstreams]
        show (b₁.streams.noteSentStreams (framesOf sent)).releaseStreams (framesOf (tracked ++ more))
          = _
        rw [hreleased.rest, hnoted.rest, hcharged.streams.rest]
        rfl
      sendFlow := by
        have hflow : b₂.sendFlow = b₁.sendFlow := by rw [hrec.rest]
        rw [hflow, hcharged.sendFlow, framesOf_append, countStreamBytes_append]
        unfold SendFlow.giveBack
        dsimp only
        congr 1
        show _ - countStreamBytes (framesOf (tracked ++ more)) = _
        omega
      bytesInFlight := by
        have hflight : b₂.bytesInFlight = b₁.bytesInFlight := by rw [hrec.rest]
        rw [hflight, hcharged.rest]
        dsimp only
        rw [inFlightBytes_append]
        omega
      pacer := by
        unfold simulatedPacer
        rw [hrec.rest, hcharged.rest]
      sent := settled_sent ht hsmall hecn hnums hsentBefore hroom hrec
      sound := hsound
      pending := hfront
      rest := by
        rw [hrec.rest]
        rw [hcharged.rest] }

lemma reserveBatch_failed {e : Error} (hsound : b.recovery.Sound)
    (h : b.reserveBatch packets = (.error e, b₁)) (record : PreparedPacket → SentPacket)
    (nowNs : Nat) : Took pace nowNs record b b₁ [] := by
  have hopened : ∀ credits, Took pace nowNs record b
      { b with streams := (b.streams.openSendStreams credits).2 } [] := by
    intro credits
    obtain ⟨ids, hopens⟩ := openSendStreams_any b.streams credits
    exact
      { entries := fun j => hopens.sendEntry j
        known := fun j hj => (hopens.known j).mpr (.inl hj)
        table := hopens.rest
        sendFlow := rfl
        bytesInFlight := rfl
        pacer := rfl
        sent := rfl
        sound := hsound
        pending := (append_nil _).symm
        rest := rfl }
  unfold reserveBatch at h
  rcases hplan : plannedStreamCredits packets 0 [] with e | ⟨total, credits⟩
  · rw [hplan] at h
    cases h
    exact Took.refl hsound
  rw [hplan] at h
  dsimp only at h
  have hone := hopened credits
  rcases hopen : b.streams.openSendStreams credits with ⟨e | u, streams⟩
  · rw [hopen] at h hone
    cases h
    exact hone
  rw [hopen] at h hone
  dsimp only at h hone
  split at h
  · cases h
  · cases h
    exact hone
  · cases h
    exact hone
  · cases h
    exact hone

end SendAccounts

namespace Sender

open SendAccounts

variable {P M : Type} {s t u : Sender (SendAccounts P M)} {pace : Pacing P M} {a : Attempt}

/-- How many packets of the batch the socket took. -/
def sentOf : Except Error BatchSendResult → Nat
  | .ok result => result.sentCount
  | .error _ => 0

lemma Planned.numbered {packets : List (List Frame)} {planned : List PreparedPacket} {nowNs : Nat}
    (h : Planned (SendAccounts.books pace) s nowNs packets planned) :
    Numbered s.nextPacketNumber planned where
  ascending := by
    rw [h.numbers]
    exact pairwise_lt_range'
  new := by
    intro p hp
    obtain ⟨before, after, hsplit⟩ := append_of_mem hp
    simp [(h.fits before p after hsplit).number]
  small := by
    intro p hp
    obtain ⟨before, after, hsplit⟩ := append_of_mem hp
    exact shortPacketLen_number (h.fits before p after hsplit).len

/-- **Nothing of a batch that is given up is left in the accounts.** -/
theorem abandonPackets_took (hs : Held s) (hecn : a.ecn = .notEct) {planned : List PreparedPacket}
    (hnums : Numbered s.nextPacketNumber planned) {b₁ : SendAccounts P M}
    (hcharged : BatchCharged s.books b₁ planned) {count : Nat}
    (hrec : Recorded b₁ u.books (recordsOf (batchRecord · a) (planned.take count)))
    (nowNs : Nat) (needsKeyUpdate : Bool) :
    Took pace nowNs (batchRecord · a) s.books
      (u.abandonPackets (SendAccounts.books pace) planned count needsKeyUpdate a).books [] := by
  have hbooks : (u.abandonPackets (SendAccounts.books pace) planned count needsKeyUpdate a).books =
      (untrackPackets (SendAccounts.books pace) a u.books (planned.take count)).releaseBatch
        planned := by
    have hcalm : (u.releaseAntiAmplification (packetsPayloadLen planned)).books = u.books := by
      unfold releaseAntiAmplification
      split <;> rfl
    unfold abandonPackets
    dsimp only
    rw [hcalm]
    split <;> rfl
  have hall : planned = [] ++ (planned.take count ++ planned.drop count) := by
    rw [nil_append, take_append_drop]
  rw [hbooks, untrackPackets_eq]
  have hsettled : Took pace nowNs (batchRecord · a) s.books _ [] :=
    took_of_settled hs.tracked hs.small hecn []
    (planned.take count) (planned.drop count)
    (hnums.sublist (take_sublist _ _)) (by rw [← hall]; exact hcharged) hrec nowNs
  rw [take_append_drop] at hsettled
  exact hsettled

end Sender

end Netz.Quic
