/-
A whole batch: what `sendPackets` leaves in the accounts.

Whichever way the call ends, the packets that the socket took are in the accounts and nothing
else is (`Leaves`).  When some packet left, the whole batch could be afforded, every packet of
it found room for its records, and there was anti-amplification credit for all of them.
-/
import Netz.Proofs.BatchTaken

namespace Netz.Quic.Sender

open Lib List
open SendAccounts Recovery.Queue

variable {P M : Type} {s t u : Sender (SendAccounts P M)} {pace : Pacing P M} {a : Attempt}

/-- **The first `count` packets of a batch have left, and nothing else is left behind.** -/
structure Leaves (pace : Pacing P M) (a : Attempt) (s t : Sender (SendAccounts P M))
    (planned : List PreparedPacket) (count : Nat) : Prop where
  bounded : count ≤ planned.length
  took : Took pace a.nowNs (batchRecord · a) s.books t.books (planned.take count)
  charged : count ≠ 0 → ∃ b₁, BatchCharged s.books b₁ planned ∧
    EachTracked b₁ (batchRecord · a) planned
  credit : count ≠ 0 → Credit s (packetsPayloadLen planned)

variable {planned : List PreparedPacket} {B : Type} {sealed : List ShortPacket}

lemma Leaves.nothing (h : Took pace a.nowNs (batchRecord · a) s.books t.books []) :
    Leaves pace a s t planned 0 where
  bounded := Nat.zero_le _
  took := h
  charged h := absurd rfl h
  credit h := absurd rfl h

lemma releaseAntiAmplification_books (s : Sender B) (bytes : Nat) :
    (s.releaseAntiAmplification bytes).books = s.books := by
  unfold releaseAntiAmplification
  split <;> rfl

lemma prepareBatchKeys_books (s : Sender B) (needsKeyUpdate : Bool) :
    (s.prepareBatchKeys needsKeyUpdate).2.books = s.books := by
  unfold prepareBatchKeys prepareAeadForEncryption
  split
  · split
    · rfl
    · split <;> rfl
  · rfl

lemma zip_lengths (h : sealed.map ShortPacket.size <+: planned.map PreparedPacket.size) :
    ∀ q ∈ planned.zip sealed, q.2.length = q.1.packetLen := by
  intro q hq
  obtain ⟨i, hi, rfl⟩ := mem_iff_getElem.mp hq
  rw [length_zip] at hi
  have hsize := h.getElem (i := i) (by rw [length_map]; omega)
  rw [getElem_map, getElem_map] at hsize
  rw [getElem_zip]
  exact congrArg PacketSize.packetLen hsize

/-- **Committing a batch leaves the packets that the socket took.** -/
theorem commitPackets_took (hs : Held s) (hecn : a.ecn = .notEct)
    (hnums : Numbered s.nextPacketNumber planned) {b₁ : SendAccounts P M}
    (hcharged : BatchCharged s.books b₁ planned) (hall : sealed.length = planned.length)
    (hsizes : sealed.map ShortPacket.size <+: planned.map PreparedPacket.size)
    (hrec : Recorded b₁ u.books (recordsOf (batchRecord · a) planned)) (sentCount : Nat)
    (needsKeyUpdate : Bool) :
    Took pace a.nowNs (batchRecord · a) s.books
      (u.commitPackets (SendAccounts.books pace) planned sealed sentCount needsKeyUpdate a).books
      (planned.take sentCount) := by
  have hbooks :
      (u.commitPackets (SendAccounts.books pace) planned sealed sentCount needsKeyUpdate a).books =
      (untrackPackets (SendAccounts.books pace) a
        (notePackets (SendAccounts.books pace) a.nowNs u.books ((planned.zip sealed).take sentCount))
        (planned.drop sentCount)).releaseBatch (planned.drop sentCount) := by
    unfold commitPackets
    dsimp only
    rw [releaseAntiAmplification_books]
    rfl
  have hfirst : ((planned.zip sealed).take sentCount).map Prod.fst = planned.take sentCount := by
    rw [map_take, map_fst_zip (Nat.le_of_eq hall.symm)]
  have hsplit : planned.take sentCount ++ (planned.drop sentCount ++ []) = planned := by
    rw [append_nil, take_append_drop]
  rw [hbooks, notePackets_eq, hfirst, untrackPackets_eq]
  · have hsettled : Took pace a.nowNs (batchRecord · a) s.books _ (planned.take sentCount) :=
      took_of_settled hs.tracked hs.small hecn
        (planned.take sentCount) (planned.drop sentCount) []
        (by rw [take_append_drop]; exact hnums) (by rw [hsplit]; exact hcharged)
        (by rw [take_append_drop]; exact hrec) a.nowNs
    rw [append_nil] at hsettled
    exact hsettled
  · intro q hq
    exact zip_lengths hsizes q (mem_of_mem_take hq)

/-- **What a batch leaves behind, however it ends.** -/
theorem sendPackets_leaves (hs : Held s) (hecn : a.ecn = .notEct) {packets : List (List Frame)}
    (hplanned : Planned (SendAccounts.books pace) s a.nowNs packets planned)
    (hsizes : PacketsPlanned s planned) {needsKeyUpdate : Bool} {delivery : BatchDelivery}
    {result : Except Error BatchSendResult}
    (h : s.sendPackets (SendAccounts.books pace) planned needsKeyUpdate a delivery = (result, t)) :
    Leaves pace a s t planned (sentOf result) := by
  have hnums := hplanned.numbered
  unfold sendPackets at h
  by_cases hmemory : delivery = .outOfMemory
  · rw [if_pos hmemory] at h
    cases h
    exact Leaves.nothing (Took.refl hs.tracked.sound)
  rw [if_neg hmemory] at h
  rcases hres : (SendAccounts.books pace).reserveBatch s.books planned with ⟨e | _, b₁⟩
  · rw [hres] at h
    cases h
    exact Leaves.nothing (reserveBatch_failed hs.tracked.sound hres _ _)
  rw [hres] at h
  dsimp only at h
  have hcharged : BatchCharged s.books b₁ planned := reserveBatch_charged hres
  have ht₁ : b₁.Tracked s.nextPacketNumber :=
    Tracks.congr hs.tracked (by rw [hcharged.rest]) (by rw [hcharged.rest])
  cases hcred : ({ s with books := b₁ } : Sender (SendAccounts P M)).reserveAntiAmplification
      (packetsPayloadLen planned) with
  | error e =>
    rw [hcred] at h
    cases h
    have hsettled : Took pace a.nowNs (batchRecord · a) s.books _ [] :=
      took_of_settled hs.tracked hs.small hecn [] [] planned
        (hnums.sublist (nil_sublist _)) hcharged (Recorded.refl ht₁.sound) a.nowNs
    exact Leaves.nothing hsettled
  | ok s₁ =>
    rw [hcred] at h
    dsimp only at h
    have hcan : Credit s (packetsPayloadLen planned) :=
      (reserveAntiAmplification_iff (s := { s with books := b₁ }) _).mp ⟨_, hcred⟩
    have hsteady := reserveAntiAmplification_steady hcred
    have hbooks₁ : s₁.books = b₁ := hsteady.books
    rcases hkeys : s₁.prepareBatchKeys needsKeyUpdate with ⟨e | _, s₂⟩
    · rw [hkeys] at h
      cases h
      refine Leaves.nothing (abandonPackets_took hs hecn hnums hcharged ?_ _ _)
      have hbooks₂ : s₂.books = b₁ := by
        have hkeep := prepareBatchKeys_books s₁ needsKeyUpdate
        rw [hkeys] at hkeep
        exact hkeep.trans hbooks₁
      rw [hbooks₂]
      exact Recorded.refl ht₁.sound
    rw [hkeys] at h
    dsimp only at h
    have hbooks₂ : s₂.books = b₁ := by
      have hkeep := prepareBatchKeys_books s₁ needsKeyUpdate
      rw [hkeys] at hkeep
      exact hkeep.trans hbooks₁
    rcases hseal : s₂.sealPackets (SendAccounts.books pace) a planned with ⟨stopped, sealed, v⟩
    rw [hseal] at h
    obtain ⟨hrec, heach⟩ := sealPackets_recorded (by rw [hbooks₂]; exact ht₁)
      hplanned.numbers hnums.small hseal
    rw [hbooks₂] at hrec heach
    have habandon : Took pace a.nowNs (batchRecord · a) s.books
        (v.abandonPackets (SendAccounts.books pace) planned sealed.length needsKeyUpdate a).books [] :=
      abandonPackets_took hs hecn hnums hcharged hrec a.nowNs needsKeyUpdate
    cases stopped with
    | some e =>
      cases h
      exact Leaves.nothing habandon
    | none =>
      cases delivery with
      | outOfMemory => exact absurd rfl hmemory
      | refused =>
        cases h
        exact Leaves.nothing habandon
      | progress sentCount sendError =>
        cases h
        have hquiet := prepareBatchKeys_quiet s₁ needsKeyUpdate
        rw [hkeys] at hquiet
        obtain ⟨hplan, hall⟩ := sealPackets_seals (SendAccounts.books pace) a planned
          (s := s₂) (fun p hp => by
            rw [hsizes.sizes p hp, hquiet.sizeOf]
            unfold Sender.sizeOf
            rw [hsteady.connectionId])
        rw [hseal] at hplan hall
        have hlen : sealed.length = planned.length := hall rfl
        rw [hlen, take_length] at hrec heach
        have htook : Took pace a.nowNs (batchRecord · a) s.books
            (v.commitPackets (SendAccounts.books pace) planned sealed sentCount needsKeyUpdate
              a).books (planned.take sentCount) :=
          commitPackets_took hs hecn hnums hcharged hlen hplan.sizes hrec sentCount
            needsKeyUpdate
        have hcount : (sealed.take sentCount).length = min sentCount planned.length := by
          rw [length_take, hlen]
        exact
          { bounded := by
              show (sealed.take sentCount).length ≤ _
              omega
            took := by
              show Took _ _ _ _ _ (planned.take (sealed.take sentCount).length)
              simp [hcount, ← take_eq_take_min, htook]
            charged := fun _ => ⟨b₁, hcharged, heach⟩
            credit := fun _ => hcan }

end Netz.Quic.Sender

/-! ### The next packet of a batch, sent on its own

A batch checks its packets against one state of the sender, the single-packet path checks each
against what those before it left.  `passes_next` is the step between the two: behind the
packets before it (`After`) a packet of a batch passes everything the batch passed, as long as
its streams still take its frames (`PermitsFrames`). -/

namespace Netz.Quic

open Lib List

namespace IndexedTracker

lemma sentAll_largestAcknowledged (room : Nat → Bool) (t : IndexedTracker) (sendings : List Sending) :
    (sentAll room t sendings).largestAcknowledged = t.largestAcknowledged := by
  induction sendings generalizing t with
  | nil => rfl
  | cons sending rest ih =>
    refine (ih _).trans ?_
    unfold IndexedTracker.sent
    dsimp only
    split <;> rfl

end IndexedTracker

namespace StreamTable

lemma sentOn_flow (j : Nat) (frames : List Frame) (e : StreamFlowEntry) :
    (sentOn j frames e).flow = { e.flow with used := e.flow.used + streamBytes frames j } :=
  foldl_noteOn_flow j frames _

end StreamTable

namespace SendAccounts

variable {P M : Type} {b b' b₁ : SendAccounts P M} {pace : Pacing P M} {nowNs : Nat}
  {record : PreparedPacket → SentPacket}

/-- The streams take these frames, behind the frames that were sent before. -/
def PermitsFrames (b : SendAccounts P M) (before frames : List Frame) : Prop :=
  ∀ f, .stream f ∈ frames → StreamTable.checkSendEntry
    (StreamTable.sentOn f.streamId before (b.streams.sendEntry f.streamId)) f = .granted

lemma sendEntry_of_known {t : StreamTable} {j : Nat} {entry : StreamFlowEntry}
    (h : t.findSendStreamEntry j = some entry) : t.sendEntry j = entry := by
  simp [h, StreamTable.sendEntry]

variable {before after : List PreparedPacket} {p : PreparedPacket}

lemma Took.checkStream (h : Took pace nowNs record b b' before) {frames : List Frame}
    (hpermits : PermitsFrames b (framesOf before) frames) {frame : Frame} (hmem : frame ∈ frames)
    (hgranted : b.checkStream frame = .granted) : b'.checkStream frame = .granted := by
  cases frame with
  | stream f =>
    show b'.validateStreamFrameForSend f = .granted
    have hfirst : b.validateStreamFrameForSend f = .granted := hgranted
    unfold validateStreamFrameForSend at hfirst ⊢
    cases hnow : b'.streams.findSendStreamEntry f.streamId with
    | some entry =>
      have hsame := h.entries f.streamId
      rw [sendEntry_of_known hnow] at hsame
      rw [hsame]
      exact hpermits f hmem
    | none =>
      cases hpre : b.streams.findSendStreamEntry f.streamId with
      | some entry =>
        have hknown := h.known f.streamId (by rw [hpre]; rfl)
        simp [hnow] at hknown
      | none =>
        rw [hpre] at hfirst
        have hlocal : b'.streams.config.localEndpoint = b.streams.config.localEndpoint := by
          rw [h.table]
        have hlim : ∀ d, b'.streams.peerMaxStreams d = b.streams.peerMaxStreams d := by
          intro d
          rw [h.table]
          rfl
        dsimp only at hfirst ⊢
        rw [hlocal, hlim]
        split at hfirst
        · cases hfirst
        rename_i hsend
        rw [if_neg hsend]
        split at hfirst
        · rename_i hpeer
          rw [if_pos hpeer]
        rename_i hpeer
        rw [if_neg hpeer]
        split at hfirst
        · rename_i hcount
          rw [if_pos hcount]
        · split at hfirst <;> cases hfirst
  | _ => rfl

/-- A packet of a batch can still be afforded behind those before it. -/
theorem Took.affordable (h : Took pace nowNs record b b' before)
    (hall : Affordable b (framesOf (before ++ p :: after))) : Affordable b' p.frames := by
  have hframes : framesOf (before ++ p :: after) = framesOf before ++ (p.frames ++ framesOf after) := by
    rw [framesOf_append]
    rfl
  refine ⟨?_, ?_, ?_⟩
  · intro j hj
    have hopen : b.streams.CanOpen j := by
      apply hall.opens
      rw [hframes]
      unfold streamIdsOf at hj ⊢
      rw [filterMap_append, filterMap_append]
      exact mem_append_right _ (mem_append_left _ hj)
    exact hopen.of_more h.table (h.known j)
  · have htotal := hall.total
    rw [hframes, countStreamBytes_append, countStreamBytes_append] at htotal
    rw [h.sendFlow]
    unfold SendFlow.available at htotal ⊢
    dsimp only
    omega
  intro j
  have hroom := hall.each j
  rw [hframes, streamBytes_append, streamBytes_append] at hroom
  rw [h.entries j, StreamTable.sentOn_flow]
  unfold SendFlow.available at hroom ⊢
  dsimp only
  omega

lemma Took.roomFor (h : Took pace nowNs record b b' before)
    (hall : inFlightBytes (before ++ p :: after) = 0 ∨
      inFlightBytes (before ++ p :: after) ≤ b.congestionWindow - b.bytesInFlight) :
    chargeOf p = 0 ∨ chargeOf p ≤ b'.congestionWindow - b'.bytesInFlight := by
  have hsum : inFlightBytes (before ++ p :: after)
      = inFlightBytes before + (chargeOf p + inFlightBytes after) := by
    have hlater : inFlightBytes (p :: after) = inFlightBytes [p] + inFlightBytes after :=
      inFlightBytes_append [p] after
    rw [inFlightBytes_append, hlater, inFlightBytes_single]
  rw [h.window, h.bytesInFlight]
  omega

lemma Took.unpaced (h : Took pace nowNs record b b' before)
    (hadmitted : b.admitPacket pace nowNs before p = .admitted) :
    ¬ (packetInFlight p.frames = true ∧
      (pace.deadlineAt b'.pacer nowNs p.packetLen b'.congestionWindow).isSome = true) := by
  intro hpaced
  rw [h.pacer, h.window] at hpaced
  simp [hpaced, admitPacket] at hadmitted

end SendAccounts

namespace Sender

open SendAccounts Recovery.Queue

lemma forM_ok_iff {α : Type} (f : α → Except Error Unit) (xs : List α) :
    xs.forM f = .ok () ↔ ∀ x ∈ xs, f x = .ok () := by
  induction xs with
  | nil => simp [pure, Except.pure]
  | cons x rest ih =>
    have hcons : (x :: rest).forM f = (f x >>= fun _ => rest.forM f) := rfl
    rw [hcons, forall_mem_cons, ← ih]
    cases f x with
    | error | ok => simp [bind, Except.bind]

lemma checkStreams_granted {B : Type} {k : Books B} {s : Sender B} {frames : List Frame}
    (h : ∀ frame ∈ frames, k.checkStream s.books frame = .granted) :
    s.checkStreams k frames = .granted := by
  induction frames with
  | nil => rfl
  | cons frame rest ih =>
    unfold checkStreams
    rw [h frame (mem_cons_self ..)]
    exact ih (fun f hf => h f (mem_cons_of_mem _ hf))

variable {P M : Type} {s t u v : Sender (SendAccounts P M)} {pace : Pacing P M} {a : Attempt}

/-- What the tracker needs of a packet does not depend on the path. -/
theorem records_eliciting (packets : List PreparedPacket) :
    eliciting (recordsOf (batchRecord · a) packets) = eliciting (recordsOf (sentRecord · a) packets) := by
  unfold eliciting recordsOf
  induction packets with
  | nil => rfl
  | cons p rest ih =>
    rw [map_cons, map_cons]
    by_cases hack : (sentRecord p a).ackEliciting = true
    · rw [filter_cons_of_pos (by exact hack), filter_cons_of_pos (by exact hack),
        map_cons, ih]
      rfl
    · rw [filter_cons_of_neg (by exact hack), filter_cons_of_neg (by exact hack), ih]

variable {packets : List (List Frame)} {planned before after : List PreparedPacket}
  {p : PreparedPacket}

lemma Planned.prepared (hplan : Planned (SendAccounts.books pace) s a.nowNs packets planned)
    (hsplit : planned = before ++ p :: after) (hv : After pace a s v before) :
    v.prepareFramesForSend (SendAccounts.books pace) p.frames a = .ok p := by
  have hfits := hplan.fits before p after hsplit
  have hnum : p.packetNumber = v.nextPacketNumber := by rw [hfits.number, hv.next]
  have hmax : (SendAccounts.books pace).largestAcknowledged v.books =
      (SendAccounts.books pace).largestAcknowledged s.books := by
    show v.books.sent.largestAcknowledged = s.books.sent.largestAcknowledged
    rw [hv.took.sent, IndexedTracker.sentAll_largestAcknowledged]
  have hsize : v.currentSendDatagramSize (SendAccounts.books pace) =
      s.currentSendDatagramSize (SendAccounts.books pace) := by
    have hpmtud : v.books.pmtud = s.books.pmtud := by rw [hv.took.rest]
    simp [hv.config, hpmtud, currentSendDatagramSize, SendAccounts.books]
  refine prepareFramesForSend_of _ rfl hnum ?_ ?_ ?_ ?_ ?_
  · exact (hplan.checked p (by rw [hsplit]; simp)).payload
  · rw [← hnum, hmax]
    exact hfits.numberLen
  · rw [← hnum, hv.connectionId]
    exact hfits.len
  · rw [hsize]
    exact hfits.size
  rintro ⟨hflight, hany⟩
  refine hv.took.unpaced hfits.admitted ⟨hflight, ?_⟩
  unfold Attempt.nowNs
  cases htime : a.sentTimeNs with
  | none => simp [htime] at hany
  | some now =>
    rw [htime] at hany
    exact hany

/-- **Behind the packets before it, the next packet of a batch passes.** -/
theorem passes_next {b₁ : SendAccounts P M}
    (hclosed : ¬ (s.closeInfo = true ∨ s.idleTimedOut = true))
    (hplan : Planned (SendAccounts.books pace) s a.nowNs packets planned)
    (hcharged : BatchCharged s.books b₁ planned) (heach : EachTracked b₁ (batchRecord · a) planned)
    (hcan : Credit s (packetsPayloadLen planned)) (hsplit : planned = before ++ p :: after)
    (hv : After pace a s v before) (hpermits : PermitsFrames s.books (framesOf before) p.frames) :
    ∃ c₁ c₂ s₁ s₂, Passes (SendAccounts.books pace) v p.frames a p c₁ c₂ s₁ s₂ := by
  have hmem : p ∈ planned := by rw [hsplit]; simp
  have hfits := hplan.fits before p after hsplit
  have hchecked := hplan.checked p hmem
  have hnum : p.packetNumber = v.nextPacketNumber := by rw [hfits.number, hv.next]
  have hsmall : p.packetNumber ≤ maxPacketNumber := shortPacketLen_number hfits.len
  -- Credit for the frames.
  obtain ⟨⟨total, credits⟩, hcollect⟩ := hcharged.collects p hmem
  have haffordable : Affordable v.books p.frames := by
    have hall := hcharged.affordable
    rw [hsplit] at hall
    exact hv.took.affordable hall
  obtain ⟨c₁, hflow⟩ := reserveFlow_of hcollect haffordable
  have hcharge : Charged v.books c₁ p.frames := reserveFlow_charged hflow
  have ht : c₁.Tracked v.nextPacketNumber :=
    Tracks.congr hv.held.tracked (by rw [hcharge.rest]) (by rw [hcharge.rest])
  -- Room for the records.
  have hcanTrack : CanTrack c₁ (sentRecord p a) p.payload := by
    intro hack
    obtain ⟨hpay, hroom⟩ := heach before p after hsplit hack
    refine ⟨hpay, ?_⟩
    have hfirst : b₁.recovery = s.books.recovery := by rw [hcharged.rest]
    have hnow : c₁.recovery = v.books.recovery := by rw [hcharge.rest]
    rw [hfirst, records_eliciting] at hroom
    rw [hnow, hv.ids]
    exact hroom
  have hwin : chargeOf p = 0 ∨ chargeOf p ≤ c₁.congestionWindow - c₁.bytesInFlight := by
    have hroom := hcharged.room
    rw [hsplit] at hroom
    have hsame : c₁.congestionWindow = v.books.congestionWindow ∧
        c₁.bytesInFlight = v.books.bytesInFlight := by
      rw [hcharge.rest]
      exact ⟨rfl, rfl⟩
    rw [hsame.1, hsame.2]
    exact hv.took.roomFor hroom
  obtain ⟨group, c₂, htrack⟩ := ht.track_of (hnum : (sentRecord p a).packetNumber = _)
    (hnum ▸ hsmall) hcanTrack hwin
  have hrec := track_recorded ht.sound htrack
  have hpacer : c₂.pacer = v.books.pacer ∧ c₂.congestionWindow = v.books.congestionWindow := by
    rw [hrec.rest, hcharge.rest]
    exact ⟨rfl, rfl⟩
  -- A key and credit for the bytes.
  have hbudget : 0 < ({ v with books := c₂ } : Sender (SendAccounts P M)).aeadBudget := by
    have hfirst := hplan.budget
    have hleft := hv.budget
    rw [hsplit, length_append, length_cons] at hfirst
    show 0 < v.aeadBudget
    omega
  obtain ⟨hkeys, -⟩ := prepareAeadForEncryption_budget v.nextPacketNumber p.packetNumberLen p.payload
    hbudget
  rcases hprep : ({ v with books := c₂ } : Sender (SendAccounts P M)).prepareAeadForEncryption
    v.nextPacketNumber with ⟨prepared, s₁⟩
  rw [hprep] at hkeys
  subst hkeys
  have hcred : Credit v p.payload.length := by
    have hsum : packetsPayloadLen planned =
        packetsPayloadLen before + (p.payload.length + packetsPayloadLen after) := by
      rw [hsplit, packetsPayloadLen_append]
      unfold packetsPayloadLen
      rw [map_cons, sum_cons]
    rw [hsum] at hcan
    have hleft := hv.credit _ hcan
    intro remaining hrem
    exact Nat.le_trans (Nat.le_add_right _ _) (hleft remaining hrem)
  obtain ⟨s₂, hres⟩ := (reserveAntiAmplification_iff (s := s₁) p.payload.length).mpr (by
    intro remaining hrem
    rw [(prepareAeadForEncryption_steady hprep).2] at hrem
    exact hcred remaining hrem)
  refine ⟨c₁, c₂, s₁, s₂, ?_⟩
  exact
    { closed := by
        rw [hv.closeInfo, hv.idleTimedOut]
        exact hclosed
      number := by
        unfold validateNextPacketNumber
        rw [if_neg (Nat.not_lt_of_le (hnum ▸ hsmall))]
      valid := by
        unfold validateOutboundFrames
        rw [if_neg hchecked.nonempty, forM_ok_iff]
        intro frame hframe
        have hvalid := hchecked.valid frame hframe
        have hsame : v.validateOutboundFrame frame = s.validateOutboundFrame frame := by
          unfold validateOutboundFrame
          rw [hv.config]
        rw [hsame]
        exact hvalid
      streams := checkStreams_granted (fun frame hframe =>
        hv.took.checkStream hpermits hframe (hchecked.streams frame hframe))
      prepared := hplan.prepared hsplit hv
      flow := hflow
      tracked := ⟨group, htrack⟩
      paced := by
        rintro ⟨hflight, hdue⟩
        refine hv.took.unpaced hfits.admitted ⟨hflight, ?_⟩
        rw [← hpacer.1, ← hpacer.2]
        exact Option.isSome_iff_ne_none.mpr hdue
      keys := hprep
      credit := hres }

end Sender

end Netz.Quic
