/-
The streams of a sender after packets were sent.

A stream without an entry stands for the entry it would get (`sendEntry`), so that opening
streams changes nothing.  Sending frames changes the entry of every stream by one function
(`sentOn`): the bytes it carries are used up, and where it ends is noted.  Reserving credit
for more frames and giving the rest back comes to the same.
-/
import Netz.Proofs.StreamCredit

namespace Netz.Quic

open Lib List

namespace StreamTable

variable {t t' t'' : StreamTable}

/-- The entry of a stream, or the one it would get. -/
def sendEntry (t : StreamTable) (streamId : Nat) : StreamFlowEntry :=
  (t.findSendStreamEntry streamId).getD (t.freshEntry streamId)

/-- What sending the frames does to the entry of a stream. -/
def sentOn (j : Nat) (frames : List Frame) (e : StreamFlowEntry) : StreamFlowEntry :=
  frames.foldl (noteOn j)
    (withFlow (fun flow => { flow with used := flow.used + streamBytes frames j }) e)

variable {g : Nat → StreamFlowEntry → StreamFlowEntry} {ids : List Nat} {frames : List Frame}
  {j : Nat}

lemma Changes.fresh (h : Changes t t' g) (j : Nat) : t'.freshEntry j = t.freshEntry j := by
  rw [h.rest]
  rfl

lemma Changes.sendEntry (h : Changes t t' g)
    (hfresh : ∀ j, t.findSendStreamEntry j = none → g j (t.freshEntry j) = t.freshEntry j) (j : Nat) :
    t'.sendEntry j = g j (t.sendEntry j) := by
  unfold StreamTable.sendEntry
  rw [h.entries j, h.fresh j]
  cases hfind : t.findSendStreamEntry j with
  | none => exact (hfresh j hfind).symm
  | some e => rfl

lemma Changes.known (h : Changes t t' g) (j : Nat) :
    (t'.findSendStreamEntry j).isSome = (t.findSendStreamEntry j).isSome := by
  rw [h.entries j, Option.isSome_map]

lemma Opens.sendEntry (h : Opens t t' ids) (j : Nat) : t'.sendEntry j = t.sendEntry j := by
  unfold StreamTable.sendEntry
  rw [h.entries j, h.fresh j]
  cases t.findSendStreamEntry j with
  | none => split <;> rfl
  | some e => rfl

lemma Opens.known (h : Opens t t' ids) (j : Nat) :
    (t'.findSendStreamEntry j).isSome = true ↔
      (t.findSendStreamEntry j).isSome = true ∨ j ∈ ids := by simp [h.entries j]

/-! ### Frames and entries -/

lemma streamBytes_absent (h : j ∉ streamIdsOf frames) : streamBytes frames j = 0 := by
  induction frames with
  | nil => rfl
  | cons frame rest ih =>
    cases frame with
    | stream f =>
      have hsplit : j ∉ f.streamId :: streamIdsOf rest := h
      rw [mem_cons, not_or] at hsplit
      show (if f.streamId = j then f.data.length else 0) + streamBytes rest j = 0
      rw [if_neg (Ne.symm hsplit.1), ih hsplit.2]
    | _ =>
      show 0 + streamBytes rest j = 0
      rw [ih h]

lemma foldl_noteOn_absent (h : j ∉ streamIdsOf frames) (e : StreamFlowEntry) :
    frames.foldl (noteOn j) e = e := by
  induction frames generalizing e with
  | nil => rfl
  | cons frame rest ih =>
    cases frame with
    | stream f =>
      have hsplit : j ∉ f.streamId :: streamIdsOf rest := h
      rw [mem_cons, not_or] at hsplit
      show rest.foldl (noteOn j) (if f.streamId = j then noteSentEntry e f else e) = e
      rw [if_neg (Ne.symm hsplit.1), ih hsplit.2]
    | _ => exact ih h e

lemma noteOn_withFlow (j : Nat) (f : SendFlow → SendFlow) (e : StreamFlowEntry) (frame : Frame) :
    noteOn j (withFlow f e) frame = withFlow f (noteOn j e frame) := by
  cases frame with
  | stream s =>
    show (if s.streamId = j then noteSentEntry (withFlow f e) s else withFlow f e)
      = withFlow f (if s.streamId = j then noteSentEntry e s else e)
    split
    · unfold noteSentEntry
      split <;> rfl
    · rfl
  | _ => rfl

lemma foldl_noteOn_withFlow (j : Nat) (f : SendFlow → SendFlow) (frames : List Frame)
    (e : StreamFlowEntry) :
    frames.foldl (noteOn j) (withFlow f e) = withFlow f (frames.foldl (noteOn j) e) := by
  induction frames generalizing e with
  | nil => rfl
  | cons frame rest ih => rw [foldl_cons, foldl_cons, noteOn_withFlow, ih]

lemma sentOn_append (j : Nat) (xs ys : List Frame) (e : StreamFlowEntry) :
    sentOn j (xs ++ ys) e = sentOn j ys (sentOn j xs e) := by
  unfold sentOn
  rw [← foldl_noteOn_withFlow j _ xs, withFlow_withFlow, streamBytes_append]
  simp [Nat.add_assoc]

/-- **Reserving for all frames, noting the first and giving the others back.** -/
theorem sentOn_prefix (j : Nat) (xs ys : List Frame) (e : StreamFlowEntry) :
    withFlow (fun flow => flow.giveBack (streamBytes ys j)) (xs.foldl (noteOn j)
      (withFlow (fun flow => { flow with used := flow.used + streamBytes (xs ++ ys) j }) e))
      = sentOn j xs e := by
  unfold sentOn
  rw [← foldl_noteOn_withFlow, withFlow_withFlow, streamBytes_append]
  congr 2
  funext flow
  unfold SendFlow.giveBack
  dsimp only
  congr 1
  omega

end StreamTable

end Netz.Quic

/-! ### Flow control credit for one packet and for a batch of them

Both paths open the streams of the frames, take the bytes of all frames from the
connection's flow and the bytes of each stream from its own, and fail where a stream cannot
be opened or credit is missing.  Which order they do it in does not matter. -/

namespace Netz.Quic

open Lib List

namespace StreamTable

variable {t t' t'' : StreamTable}

/-- The stream has an entry, or may get one. -/
def CanOpen (t : StreamTable) (j : Nat) : Prop :=
  (t.findSendStreamEntry j).isSome = true ∨
    ¬ (streamInitiatedByLocal t.config.localEndpoint j = true ∧
      t.peerMaxStreams (streamDirection j) < streamCountForId j)

lemma sendStreamEntry_iff (t : StreamTable) (j : Nat) :
    (∃ entry t', t.sendStreamEntry j = (.ok entry, t')) ↔ CanOpen t j := by
  unfold sendStreamEntry CanOpen
  cases t.findSendStreamEntry j with
  | some entry => exact ⟨fun _ => .inl rfl, fun _ => ⟨entry, t, rfl⟩⟩
  | none =>
    by_cases hlim : streamInitiatedByLocal t.config.localEndpoint j = true ∧
        t.peerMaxStreams (streamDirection j) < streamCountForId j
    · simp [hlim]
    · simp [hlim]

lemma CanOpen.of_more {j : Nat} (h : CanOpen t j)
    (hrest : t' = { t with sendStreams := t'.sendStreams })
    (hmore : (t.findSendStreamEntry j).isSome = true → (t'.findSendStreamEntry j).isSome = true) :
    CanOpen t' j := by
  rcases h with hknown | hnew
  · exact .inl (hmore hknown)
  refine .inr ?_
  rw [hrest]
  exact hnew

lemma openSendStreams_iff (t : StreamTable) (credits : List ReservedStreamCredit) :
    (∃ t', t.openSendStreams credits = (.ok (), t')) ↔ ∀ c ∈ credits, CanOpen t c.streamId := by
  induction credits generalizing t with
  | nil => exact ⟨fun _ c hc => absurd hc not_mem_nil, fun _ => ⟨t, rfl⟩⟩
  | cons credit rest ih =>
    rw [openSendStreams]
    rcases hopen : t.sendStreamEntry credit.streamId with ⟨e | entry, t₁⟩
    · constructor
      · simp
      intro h
      obtain ⟨entry, t', hok⟩ := (sendStreamEntry_iff t credit.streamId).mpr
        (h credit (mem_cons_self ..))
      simp [hopen] at hok
    have hopens := sendStreamEntry_opens hopen
    have hfirst := (sendStreamEntry_iff t credit.streamId).mp ⟨entry, t₁, hopen⟩
    rw [ih t₁]
    constructor
    · intro h c hc
      rcases mem_cons.mp hc with rfl | hc
      · exact hfirst
      rcases h c hc with hknown | hnew
      · rcases (hopens.known _).mp hknown with hold | hsame
        · exact .inl hold
        · simp [mem_singleton.mp hsame, hfirst]
      refine .inr ?_
      rw [hopens.rest] at hnew
      exact hnew
    intro h c hc
    exact (h c (mem_cons_of_mem _ hc)).of_more hopens.rest
      (fun hknown => (hopens.known _).mpr (.inl hknown))

/-- The bytes of the frames are taken from the flow of each stream. -/
structure Taken (t t' : StreamTable) (frames : List Frame) : Prop where
  entries : ∀ j, t'.sendEntry j =
    withFlow (fun flow => { flow with used := flow.used + streamBytes frames j }) (t.sendEntry j)
  known : ∀ j, (t'.findSendStreamEntry j).isSome = true ↔
    (t.findSendStreamEntry j).isSome = true ∨ j ∈ streamIdsOf frames
  rest : t' = { t with sendStreams := t'.sendStreams }

variable {frames : List Frame} {credits : List ReservedStreamCredit}

/-- **Opening the streams of some frames and taking their bytes.** -/
theorem taken_of_reserve (hc : CreditsOf credits (streamIdsOf frames) (streamBytes frames))
    (hopen : t.openSendStreams credits = (.ok (), t'))
    (hres : t'.reserveStreams credits = .ok t'') : Taken t t'' frames := by
  have hopens := openSendStreams_opens hopen
  have hchanges := reserveStreams_changes hc.nodup hres
  have hknown : ∀ j, (t'.findSendStreamEntry j).isSome = true ↔
      (t.findSendStreamEntry j).isSome = true ∨ j ∈ streamIdsOf frames := by
    intro j
    rw [hopens.known j, hc.ids j]
  refine ⟨fun j => ?_, fun j => ?_, by rw [hchanges.rest, hopens.rest]⟩
  · rw [hchanges.sendEntry ?_ j, hopens.sendEntry j, hc.bytes j]
    intro i hnone
    have habsent : i ∉ streamIdsOf frames := by
      intro hmem
      have hsome := (hknown i).mpr (.inr hmem)
      simp [hnone] at hsome
    rw [hc.bytes i, streamBytes_absent habsent]
    rfl
  · rw [hchanges.known j]
    exact hknown j

/-- Where the flow of each stream has the bytes, credit can be taken. -/
theorem affords_of (hc : CreditsOf credits (streamIdsOf frames) (streamBytes frames))
    (hopens : Opens t t' (credits.map (·.streamId)))
    (hroom : ∀ j, streamBytes frames j ≤ (t.sendEntry j).flow.available) : Affords t' credits := by
  intro c hcred e he
  refine .inr ?_
  have hent : t'.sendEntry c.streamId = e := by simp [he, sendEntry]
  simp [hc.credit hcred, ← hent, hopens.sendEntry, hroom]

lemma room_of_affords (hc : CreditsOf credits (streamIdsOf frames) (streamBytes frames))
    (hopens : Opens t t' (credits.map (·.streamId))) (haffords : Affords t' credits) (j : Nat) :
    streamBytes frames j ≤ (t.sendEntry j).flow.available := by
  by_cases hmem : j ∈ streamIdsOf frames
  · obtain ⟨c, hcred, hid⟩ := mem_map.mp ((hc.ids j).mpr hmem)
    have hknown : (t'.findSendStreamEntry j).isSome = true :=
      (hopens.known j).mpr (.inr (mem_map.mpr ⟨c, hcred, hid⟩))
    obtain ⟨e, he⟩ := Option.isSome_iff_exists.mp hknown
    have hent : t'.sendEntry j = e := by simp [he, sendEntry]
    have hroom := haffords c hcred e (by rw [hid]; exact he)
    rw [hc.credit hcred, hid] at hroom
    rw [← hopens.sendEntry j, hent]
    omega
  · simp [streamBytes_absent hmem]

lemma sendAvailable_of_affords
    (hknown : ∀ c ∈ credits, (t.findSendStreamEntry c.streamId).isSome = true)
    (haffords : Affords t credits) :
    credits.find? (fun c => decide (t.sendAvailable c.streamId < c.bytes)) = none := by
  rw [find?_eq_none]
  intro c hc hless
  obtain ⟨e, he⟩ := Option.isSome_iff_exists.mp (hknown c hc)
  have hroom := haffords c hc e he
  rw [decide_eq_true_iff] at hless
  unfold sendAvailable at hless
  rw [he] at hless
  dsimp only at hless
  omega

end StreamTable

/-! ### The accounts -/

namespace SendAccounts

variable {P M : Type} {b b' : SendAccounts P M}

/-- Every stream of the frames has an entry or may get one, and there is credit for the bytes. -/
structure Affordable (b : SendAccounts P M) (frames : List Frame) : Prop where
  opens : ∀ j ∈ streamIdsOf frames, b.streams.CanOpen j
  total : countStreamBytes frames ≤ b.sendFlow.available
  each : ∀ j, streamBytes frames j ≤ (b.streams.sendEntry j).flow.available

/-- The bytes of the frames are taken from the connection's flow and from that of each stream. -/
structure Charged (b b' : SendAccounts P M) (frames : List Frame) : Prop where
  streams : b.streams.Taken b'.streams frames
  sendFlow : b'.sendFlow = { b.sendFlow with used := b.sendFlow.used + countStreamBytes frames }
  rest : b' = { b with streams := b'.streams, sendFlow := b'.sendFlow }

variable {frames : List Frame} {total bytes : Nat} {credits : List ReservedStreamCredit}
  {packets : List PreparedPacket}

lemma collected (h : collectStreamCredits frames 0 [] = .ok (total, credits)) :
    total = countStreamBytes frames ∧ CreditsOf credits (streamIdsOf frames) (streamBytes frames) := by
  obtain ⟨htotal, hc⟩ := collectStreamCredits_spec CreditsOf.empty h
  rw [Nat.zero_add] at htotal
  refine ⟨htotal, hc.nodup, hc.ids, fun j => ?_⟩
  rw [hc.bytes j, Nat.zero_add]

lemma reserveFlow_charged (h : b.reserveFlow frames = (.granted, b')) : Charged b b' frames := by
  unfold reserveFlow at h
  rcases hcollect : collectStreamCredits frames 0 [] with e | ⟨total, credits⟩
  · rw [hcollect] at h
    cases h
  obtain ⟨htotal, hc⟩ := collected hcollect
  rw [hcollect] at h
  dsimp only at h
  rcases hopen : b.streams.openSendStreams credits with ⟨e | u, streams⟩
  · simp [hopen] at h
  rw [hopen] at h
  dsimp only at h
  split at h
  · unfold blockedVerdict at h
    split at h <;> cases h
  split at h
  · unfold blockedVerdict at h
    split at h <;> cases h
  cases hflow : b.sendFlow.reserve total with
  | error e =>
    rw [hflow] at h
    cases h
  | ok sendFlow =>
    cases hres : streams.reserveStreams credits with
    | error e => simp [hflow, hres] at h
    | ok streams' =>
      rw [hflow, hres] at h
      cases h
      refine ⟨StreamTable.taken_of_reserve hc hopen hres, ?_, rfl⟩
      rw [← htotal]
      exact (StreamTable.reserve_ok hflow).1

/-- **One packet gets its credit when all of it can be afforded.** -/
theorem reserveFlow_of (hcollect : collectStreamCredits frames 0 [] = .ok (total, credits))
    (h : Affordable b frames) : ∃ b', b.reserveFlow frames = (.granted, b') := by
  obtain ⟨htotal, hc⟩ := collected hcollect
  obtain ⟨streams, hopen⟩ := (StreamTable.openSendStreams_iff b.streams credits).mpr
    (fun c hcred => h.opens _ ((hc.ids _).mp (mem_map_of_mem hcred)))
  have hopens := StreamTable.openSendStreams_opens hopen
  have haffords := StreamTable.affords_of hc hopens h.each
  obtain ⟨streams', hres⟩ := (StreamTable.reserveStreams_iff hc.nodup).mpr haffords
  have hnone := StreamTable.sendAvailable_of_affords
    (fun c hcred => (hopens.known _).mpr (.inr (mem_map_of_mem hcred))) haffords
  have htake := h.total
  rw [← htotal] at htake
  unfold reserveFlow
  rw [hcollect]
  dsimp only
  rw [hopen]
  dsimp only
  rw [if_neg (Nat.not_lt_of_le htake), hnone, StreamTable.reserve_of_le (.inr htake), hres]
  exact ⟨_, rfl⟩

lemma plannedStreamCredits_collects {total' : Nat} {planned planned' : List ReservedStreamCredit}
    (h : plannedStreamCredits packets total planned = .ok (total', planned')) :
    ∀ p ∈ packets, ∃ outcome, collectStreamCredits p.frames 0 [] = .ok outcome := by
  induction packets generalizing total planned with
  | nil => simp
  | cons packet rest ih =>
    rw [plannedStreamCredits] at h
    rcases hcollect : collectStreamCredits packet.frames 0 [] with e | outcome
    · simp [hcollect] at h
    rw [hcollect] at h
    dsimp only at h
    cases hadd : addReservedStreamCredits planned outcome.2 with
    | error e => simp [hadd] at h
    | ok added =>
      rw [hadd] at h
      intro p hp
      rcases mem_cons.mp hp with rfl | hp
      · exact ⟨outcome, hcollect⟩
      · exact ih h p hp

lemma reserveCongestion_ok (h : b.reserveCongestion bytes = .ok b') :
    b' = { b with bytesInFlight := b.bytesInFlight + bytes } ∧
      (bytes = 0 ∨ bytes ≤ b.congestionWindow - b.bytesInFlight) := by
  unfold reserveCongestion at h
  by_cases hzero : bytes = 0
  · rw [if_pos hzero] at h
    cases h
    simp [hzero]
  rw [if_neg hzero] at h
  split at h
  · cases h
  · cases h
    exact ⟨rfl, .inr (by omega)⟩

lemma reserveCongestion_of (h : bytes = 0 ∨ bytes ≤ b.congestionWindow - b.bytesInFlight) :
    b.reserveCongestion bytes = .ok { b with bytesInFlight := b.bytesInFlight + bytes } := by
  unfold reserveCongestion
  by_cases hzero : bytes = 0
  · simp [hzero]
  · rw [if_neg hzero, if_neg]
    omega

/-- What reserving a batch found, and what it took. -/
structure BatchCharged (b b' : SendAccounts P M) (packets : List PreparedPacket) : Prop where
  collects : ∀ p ∈ packets, ∃ outcome, collectStreamCredits p.frames 0 [] = .ok outcome
  affordable : Affordable b (framesOf packets)
  room : inFlightBytes packets = 0 ∨
    inFlightBytes packets ≤ b.congestionWindow - b.bytesInFlight
  streams : b.streams.Taken b'.streams (framesOf packets)
  sendFlow : b'.sendFlow =
    { b.sendFlow with used := b.sendFlow.used + countStreamBytes (framesOf packets) }
  rest : b' = { b with
      streams := b'.streams
      sendFlow := b'.sendFlow
      bytesInFlight := b.bytesInFlight + inFlightBytes packets }

/-- **A batch that got its credit could afford all of it.** -/
theorem reserveBatch_charged (h : b.reserveBatch packets = (.ok (), b')) :
    BatchCharged b b' packets := by
  unfold reserveBatch at h
  rcases hplan : plannedStreamCredits packets 0 [] with e | ⟨total, credits⟩
  · rw [hplan] at h
    cases h
  obtain ⟨htotal, hspec⟩ := plannedStreamCredits_spec CreditsOf.empty hplan
  rw [Nat.zero_add] at htotal
  have hc : CreditsOf credits (streamIdsOf (framesOf packets)) (streamBytes (framesOf packets)) :=
    ⟨hspec.nodup, hspec.ids, fun j => by rw [hspec.bytes j, Nat.zero_add]⟩
  rw [hplan] at h
  dsimp only at h
  rcases hopen : b.streams.openSendStreams credits with ⟨e | u, streams⟩
  · simp [hopen] at h
  rw [hopen] at h
  dsimp only at h
  cases hflow : b.sendFlow.reserve total with
  | error e => simp [hflow] at h
  | ok sendFlow =>
    cases hres : streams.reserveStreams credits with
    | error e => simp [hflow, hres] at h
    | ok streams' =>
      cases hroom : ({ b with streams := streams } : SendAccounts P M).reserveCongestion
        (inFlightBytes packets) with
      | error e =>
        rw [hflow, hres, hroom] at h
        cases h
      | ok b₁ =>
        rw [hflow, hres, hroom] at h
        cases h
        obtain ⟨hb₁, hwin⟩ := reserveCongestion_ok hroom
        have hopens := StreamTable.openSendStreams_opens hopen
        have haffords := (StreamTable.reserveStreams_iff hc.nodup).mp ⟨_, hres⟩
        obtain ⟨hused, htake⟩ := StreamTable.reserve_ok hflow
        rw [htotal] at hused htake
        refine
          { collects := plannedStreamCredits_collects hplan
            affordable := ⟨fun j hj => ?_, by omega, StreamTable.room_of_affords hc hopens haffords⟩
            room := hwin
            streams := StreamTable.taken_of_reserve hc hopen hres
            sendFlow := hused
            rest := ?_ }
        · obtain ⟨c, hcred, hid⟩ := mem_map.mp ((hc.ids j).mpr hj)
          rw [← hid]
          exact (StreamTable.openSendStreams_iff b.streams credits).mp ⟨_, hopen⟩ c hcred
        · rw [hb₁]

end SendAccounts

end Netz.Quic
