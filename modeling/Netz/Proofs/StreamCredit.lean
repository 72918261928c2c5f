/-
Stream credit: what the send paths reserve, give back and note, stream by stream.

The operations walk lists of credits or frames and write entries back one at a time.  Seen
through `findSendStreamEntry` each of them changes the entry of every stream by one function
(`Changes`), so that a sequence of them is compared stream by stream, whatever order it
touches the streams in.
-/
import Netz.Proofs.Stream
import Netz.Quic.SendAccounts

namespace Netz.Quic

open Lib List

/-! ### Bytes of a list of frames -/

/-- The bytes a frame carries on a stream. -/
def Frame.bytesOn (streamId : Nat) : Frame → Nat
  | .stream frame => if frame.streamId = streamId then frame.data.length else 0
  | _ => 0

def streamBytes (frames : List Frame) (streamId : Nat) : Nat :=
  (frames.map (Frame.bytesOn streamId)).sum

def Frame.streamId? : Frame → Option Nat
  | .stream frame => some frame.streamId
  | _ => none

def streamIdsOf (frames : List Frame) : List Nat := frames.filterMap Frame.streamId?

lemma streamBytes_append (xs ys : List Frame) (streamId : Nat) :
    streamBytes (xs ++ ys) streamId = streamBytes xs streamId + streamBytes ys streamId := by
  unfold streamBytes
  rw [map_append, sum_append]

lemma countStreamBytes_append (xs ys : List Frame) :
    countStreamBytes (xs ++ ys) = countStreamBytes xs + countStreamBytes ys := by
  induction xs with
  | nil => simp [countStreamBytes]
  | cons frame rest ih =>
    cases frame with
    | stream f =>
      show f.data.length + countStreamBytes (rest ++ ys) = _
      rw [ih, ← Nat.add_assoc]
      rfl
    | _ => exact ih

/-! ### Credits -/

lemma reservedStreamBytes_cons (credit : ReservedStreamCredit)
    (rest : List ReservedStreamCredit) (streamId : Nat) :
    reservedStreamBytes (credit :: rest) streamId =
      if credit.streamId = streamId then credit.bytes else reservedStreamBytes rest streamId := by
  unfold reservedStreamBytes
  rw [find?_cons]
  by_cases h : credit.streamId = streamId
  · rw [if_pos h, h, beq_self_eq_true]
  · rw [if_neg h, beq_eq_false_iff_ne.mpr h]

variable {streamId total total' : Nat} {bytes : Nat → Nat}
  {credits added planned : List ReservedStreamCredit} {ids : List Nat}

lemma addReservedStreamCredit_spec {bytes : Nat}
    (h : addReservedStreamCredit streamId bytes credits = .ok added) :
    (∀ j, reservedStreamBytes added j
      = reservedStreamBytes credits j + if j = streamId then bytes else 0) ∧
    ∃ tail, added.map (·.streamId) = credits.map (·.streamId) ++ tail ∧
      (streamId ∈ credits.map (·.streamId) → tail = []) ∧
      (streamId ∉ credits.map (·.streamId) → tail = [streamId]) := by
  induction credits generalizing added with
  | nil =>
    cases h
    refine ⟨?_, [streamId], rfl, by simp, fun _ => rfl⟩
    intro j
    rw [reservedStreamBytes_cons]
    by_cases hj : j = streamId
    · rw [if_pos hj.symm, if_pos hj]
      exact (Nat.zero_add _).symm
    · simp [Ne.symm hj, hj]
  | cons credit rest ih =>
    rw [addReservedStreamCredit] at h
    by_cases hid : credit.streamId = streamId
    · rw [if_pos hid] at h
      cases hsum : checkedAdd credit.bytes bytes with
      | none => simp [hsum] at h
      | some total =>
        rw [hsum] at h
        cases h
        refine ⟨?_, [], by simp [hid], fun _ => rfl, by simp [hid]⟩
        intro j
        rw [reservedStreamBytes_cons, reservedStreamBytes_cons, hid, (checkedAdd_eq_some.mp hsum).1]
        by_cases hj : j = streamId
        · rw [if_pos hj.symm, if_pos hj.symm, if_pos hj]
        · simp [Ne.symm hj, hj]
    rw [if_neg hid] at h
    cases hrest : addReservedStreamCredit streamId bytes rest with
    | error e => simp [hrest] at h
    | ok added' =>
      rw [hrest] at h
      cases h
      obtain ⟨hbytes, tail, hids, hin, hout⟩ := ih hrest
      refine ⟨?_, tail, by simp [hids], ?_, ?_⟩
      · intro j
        rw [reservedStreamBytes_cons, reservedStreamBytes_cons, hbytes j]
        by_cases hj : credit.streamId = j
        · rw [if_pos hj, if_pos hj, if_neg (by rw [← hj]; exact hid)]
          rfl
        · rw [if_neg hj, if_neg hj]
      · intro hmem
        rw [map_cons, mem_cons] at hmem
        exact hin (hmem.resolve_left (Ne.symm hid))
      intro hmem
      rw [map_cons, mem_cons, not_or] at hmem
      exact hout hmem.2

/-- What a list of credits says: its streams, each listed once, and the bytes of each. -/
structure CreditsOf (credits : List ReservedStreamCredit) (ids : List Nat) (bytes : Nat → Nat) :
    Prop where
  nodup : (credits.map (·.streamId)).Nodup
  ids : ∀ j, j ∈ credits.map (·.streamId) ↔ j ∈ ids
  bytes : ∀ j, reservedStreamBytes credits j = bytes j

lemma CreditsOf.empty : CreditsOf [] [] (fun _ => 0) := ⟨nodup_nil, by simp, fun _ => rfl⟩

lemma CreditsOf.add {n : Nat} (hc : CreditsOf credits ids bytes)
    (h : addReservedStreamCredit streamId n credits = .ok added) :
    CreditsOf added (ids ++ [streamId]) (fun j => bytes j + if j = streamId then n else 0) := by
  obtain ⟨hbytes, tail, hids, hin, hout⟩ := addReservedStreamCredit_spec h
  by_cases hmem : streamId ∈ credits.map (·.streamId)
  · rw [hin hmem, append_nil] at hids
    refine ⟨by rw [hids]; exact hc.nodup, ?_, fun j => by rw [hbytes j, hc.bytes j]⟩
    intro j
    rw [hids, hc.ids j, mem_append, mem_singleton]
    constructor
    · exact .inl
    rintro (hj | rfl)
    · exact hj
    · exact (hc.ids _).mp hmem
  rw [hout hmem] at hids
  refine ⟨?_, ?_, fun j => by rw [hbytes j, hc.bytes j]⟩
  · rw [hids, nodup_append]
    refine ⟨hc.nodup, nodup_singleton _, ?_⟩
    intro a ha b hb hab
    rw [mem_singleton] at hb
    exact hmem (by rw [← hb, ← hab]; exact ha)
  · intro j
    rw [hids, mem_append, mem_append, hc.ids j]

lemma CreditsOf.credit (hc : CreditsOf credits ids bytes) {credit : ReservedStreamCredit}
    (h : credit ∈ credits) : credit.bytes = bytes credit.streamId := by
  rw [← hc.bytes]
  have hnodup := hc.nodup
  clear hc
  induction credits with
  | nil => cases h
  | cons head rest ih =>
    rw [map_cons, nodup_cons] at hnodup
    rw [reservedStreamBytes_cons]
    rcases mem_cons.mp h with rfl | h
    · rw [if_pos rfl]
    rw [if_neg, ih h hnodup.2]
    intro hsame
    exact hnodup.1 (by rw [hsame]; exact mem_map_of_mem h)

/-- **A packet's credits are the bytes of its frames.** -/
theorem collectStreamCredits_spec {frames : List Frame} {credits' : List ReservedStreamCredit}
    (hc : CreditsOf credits ids bytes)
    (h : collectStreamCredits frames total credits = .ok (total', credits')) :
    total' = total + countStreamBytes frames ∧
      CreditsOf credits' (ids ++ streamIdsOf frames) (fun j => bytes j + streamBytes frames j) := by
  induction frames generalizing total credits ids bytes with
  | nil =>
    cases h
    refine ⟨rfl, ?_⟩
    rw [show ids ++ streamIdsOf [] = ids from append_nil _]
    exact hc
  | cons frame rest ih =>
    cases frame with
    | stream f =>
      rw [collectStreamCredits] at h
      cases hsum : checkedAdd total f.data.length with
      | none => simp [hsum] at h
      | some total₁ =>
        rw [hsum] at h
        cases hadd : addReservedStreamCredit f.streamId f.data.length credits with
        | error e => simp [hadd] at h
        | ok added =>
          rw [hadd] at h
          obtain ⟨htotal, hrest⟩ := ih (hc.add hadd) h
          constructor
          · rw [htotal, (checkedAdd_eq_some.mp hsum).1, Nat.add_assoc]
            rfl
          rw [append_assoc] at hrest
          refine ⟨hrest.nodup, hrest.ids, fun j => ?_⟩
          rw [hrest.bytes j]
          show _ = bytes j + ((if f.streamId = j then f.data.length else 0) + streamBytes rest j)
          by_cases hj : j = f.streamId
          · rw [if_pos hj, if_pos hj.symm]
            omega
          · simp [hj, Ne.symm hj]
    | _ =>
      obtain ⟨htotal, hrest⟩ := ih hc h
      refine ⟨htotal, hrest.nodup, hrest.ids, fun j => ?_⟩
      rw [hrest.bytes j]
      show _ = bytes j + (0 + streamBytes rest j)
      omega

lemma addReservedStreamCredits_spec {more : List ReservedStreamCredit}
    (hc : CreditsOf planned ids bytes) (h : addReservedStreamCredits planned more = .ok added)
    (hmore : (more.map (·.streamId)).Nodup) :
    CreditsOf added (ids ++ more.map (·.streamId)) (fun j => bytes j + reservedStreamBytes more j) := by
  induction more generalizing planned ids bytes with
  | nil =>
    cases h
    rw [show ids ++ ([] : List ReservedStreamCredit).map (·.streamId) = ids from append_nil _]
    exact hc
  | cons credit rest ih =>
    rw [map_cons, nodup_cons] at hmore
    rw [addReservedStreamCredits] at h
    cases hadd : addReservedStreamCredit credit.streamId credit.bytes planned with
    | error e => simp [hadd] at h
    | ok planned' =>
      rw [hadd] at h
      have hrest := ih (hc.add hadd) h hmore.2
      rw [append_assoc] at hrest
      refine ⟨hrest.nodup, hrest.ids, fun j => ?_⟩
      rw [hrest.bytes j, reservedStreamBytes_cons]
      by_cases hj : j = credit.streamId
      · have hnone : reservedStreamBytes rest j = 0 := by
          unfold reservedStreamBytes
          have hfind : rest.find? (fun c => c.streamId == j) = none := by
            rw [find?_eq_none]
            intro c hc' hbeq
            rw [beq_iff_eq] at hbeq
            exact hmore.1 (by rw [← hj, ← hbeq]; exact mem_map_of_mem hc')
          rw [hfind]
        rw [if_pos hj, if_pos hj.symm]
        omega
      · simp [hj, Ne.symm hj]

/-- The frames of packets in order. -/
def framesOf (packets : List PreparedPacket) : List Frame := packets.flatMap PreparedPacket.frames

/-- **The credits of a batch are the bytes of all its frames.** -/
theorem plannedStreamCredits_spec {packets : List PreparedPacket}
    {planned' : List ReservedStreamCredit} (hc : CreditsOf planned ids bytes)
    (h : plannedStreamCredits packets total planned = .ok (total', planned')) :
    total' = total + countStreamBytes (framesOf packets) ∧
      CreditsOf planned' (ids ++ streamIdsOf (framesOf packets))
        (fun j => bytes j + streamBytes (framesOf packets) j) := by
  induction packets generalizing total planned ids bytes with
  | nil =>
    cases h
    refine ⟨rfl, ?_⟩
    rw [show ids ++ streamIdsOf (framesOf []) = ids from append_nil _]
    exact hc
  | cons packet rest ih =>
    rw [plannedStreamCredits] at h
    rcases hcollect : collectStreamCredits packet.frames 0 [] with e | ⟨n, credits⟩
    · simp [hcollect] at h
    rw [hcollect] at h
    dsimp only at h
    obtain ⟨hn, hcredits⟩ := collectStreamCredits_spec CreditsOf.empty hcollect
    cases hadd : addReservedStreamCredits planned credits with
    | error e => simp [hadd] at h
    | ok added =>
      rw [hadd] at h
      obtain ⟨htotal, hrest⟩ := ih (addReservedStreamCredits_spec hc hadd hcredits.nodup) h
      have hframes : framesOf (packet :: rest) = packet.frames ++ framesOf rest := rfl
      refine ⟨?_, hrest.nodup, fun j => ?_, fun j => ?_⟩
      · rw [htotal, hframes, countStreamBytes_append]
        omega
      · rw [hrest.ids j, hframes]
        simp [hcredits.ids j, streamIdsOf]
      · rw [hrest.bytes j, hcredits.bytes j, hframes, streamBytes_append]
        omega

/-! ### Entries -/

namespace StreamTable

variable {t t' t'' : StreamTable}

variable {streamId amount : Nat} {entry : StreamFlowEntry}
  {g g' : Nat → StreamFlowEntry → StreamFlowEntry} {flow : SendFlow}
  {credits : List ReservedStreamCredit} {ids : List Nat}

lemma findSendStreamEntry_id (h : t.findSendStreamEntry streamId = some entry) :
    entry.streamId = streamId := by
  have hfound := find?_some h
  exact eq_of_beq hfound

lemma findSendStreamEntry_put (t : StreamTable) (entry : StreamFlowEntry) (streamId : Nat) :
    (t.putSendStreamEntry entry).findSendStreamEntry streamId =
      if streamId = entry.streamId then (t.findSendStreamEntry streamId).map (fun _ => entry)
      else t.findSendStreamEntry streamId := by
  unfold putSendStreamEntry findSendStreamEntry
  induction t.sendStreams with
  | nil => by_cases h : streamId = entry.streamId <;> simp
  | cons e rest ih =>
    rw [map_cons, find?_cons, find?_cons]
    by_cases he : e.streamId = entry.streamId
    · rw [if_pos he, he]
      by_cases hid : streamId = entry.streamId
      · simp [hid]
      rw [beq_eq_false_iff_ne.mpr (Ne.symm hid)]
      exact ih
    rw [if_neg he]
    by_cases hsame : e.streamId = streamId
    · rw [if_neg (by rw [← hsame]; exact he), hsame, beq_self_eq_true]
    · rw [beq_eq_false_iff_ne.mpr hsame]
      exact ih

/-- `t'` has the streams of `t`, and the entry of each is changed by `g`. -/
structure Changes (t t' : StreamTable) (g : Nat → StreamFlowEntry → StreamFlowEntry) : Prop where
  entries : ∀ j, t'.findSendStreamEntry j = (t.findSendStreamEntry j).map (g j)
  rest : t' = { t with sendStreams := t'.sendStreams }

lemma Changes.refl (t : StreamTable) : Changes t t (fun _ e => e) :=
  ⟨fun j => by rw [show (fun e : StreamFlowEntry => e) = id from rfl, Option.map_id]; rfl, rfl⟩

lemma Changes.trans (h : Changes t t' g) (h' : Changes t' t'' g') :
    Changes t t'' (fun j e => g' j (g j e)) := by
  refine ⟨fun j => ?_, ?_⟩
  · rw [h'.entries j, h.entries j, Option.map_map]
    rfl
  · rw [h'.rest, h.rest]

/-- Only what happens to entries that carry their own number matters. -/
theorem Changes.congr (h : Changes t t' g)
    (heq : ∀ j e, t.findSendStreamEntry j = some e → g j e = g' j e) : Changes t t' g' := by
  refine ⟨fun j => ?_, h.rest⟩
  rw [h.entries j]
  cases hfind : t.findSendStreamEntry j with
  | none => rfl
  | some e => rw [Option.map_some, Option.map_some, heq j e hfind]

lemma changes_put (hfind : t.findSendStreamEntry streamId = some entry)
    (f : StreamFlowEntry → StreamFlowEntry) (hf : (f entry).streamId = streamId) :
    Changes t (t.putSendStreamEntry (f entry)) (fun j e => if j = streamId then f e else e) := by
  refine ⟨fun j => ?_, rfl⟩
  rw [findSendStreamEntry_put, hf]
  by_cases hj : j = streamId
  · simp [hj, hfind]
  · simp [hj]

/-- An entry with its flow changed. -/
def withFlow (f : SendFlow → SendFlow) (e : StreamFlowEntry) : StreamFlowEntry :=
  { e with flow := f e.flow }

lemma withFlow_withFlow (f g : SendFlow → SendFlow) (e : StreamFlowEntry) :
    withFlow f (withFlow g e) = withFlow (fun flow => f (g flow)) e := rfl

/-! ### Giving credit back, and noting what was sent -/

lemma giveBack_giveBack (flow : SendFlow) (m n : Nat) :
    (flow.giveBack m).giveBack n = flow.giveBack (m + n) := by simp [Nat.sub_sub, SendFlow.giveBack]

lemma releaseStreams_changes (t : StreamTable) (frames : List Frame) :
    Changes t (t.releaseStreams frames)
      (fun j => withFlow (fun flow => flow.giveBack (streamBytes frames j))) := by
  induction frames generalizing t with
  | nil => exact Changes.refl t
  | cons frame rest ih =>
    cases frame with
    | stream f =>
      rw [releaseStreams]
      cases hfind : t.findSendStreamEntry f.streamId with
      | none =>
        refine (ih t).congr (fun j e he => ?_)
        have hj : f.streamId ≠ j := by
          intro hj
          simp [hj, he] at hfind
        show _ = withFlow (fun flow => flow.giveBack
          ((if f.streamId = j then f.data.length else 0) + streamBytes rest j)) e
        rw [if_neg hj, Nat.zero_add]
      | some entry =>
        have hput := changes_put hfind
          (withFlow (fun flow => flow.giveBack f.data.length))
          (show entry.streamId = f.streamId from findSendStreamEntry_id hfind)
        refine (hput.trans (ih _)).congr (fun j e _ => ?_)
        show _ = withFlow (fun flow => flow.giveBack
          ((if f.streamId = j then f.data.length else 0) + streamBytes rest j)) e
        by_cases hj : j = f.streamId
        · rw [if_pos hj, if_pos hj.symm]
          simp [withFlow_withFlow, giveBack_giveBack]
        · rw [if_neg hj, if_neg (Ne.symm hj), Nat.zero_add]
    | _ =>
      refine (ih t).congr (fun j e _ => ?_)
      show _ = withFlow (fun flow => flow.giveBack (0 + streamBytes rest j)) e
      rw [Nat.zero_add]

/-- What noting one frame does to the entry of a stream. -/
def noteOn (j : Nat) (e : StreamFlowEntry) : Frame → StreamFlowEntry
  | .stream frame => if frame.streamId = j then noteSentEntry e frame else e
  | _ => e

@[simp] lemma noteSentEntry_flow (e : StreamFlowEntry) (frame : StreamFrame) :
    (noteSentEntry e frame).flow = e.flow ∧ (noteSentEntry e frame).streamId = e.streamId := by
  unfold noteSentEntry
  split <;> exact ⟨rfl, rfl⟩

lemma noteSentStreams_changes (t : StreamTable) (frames : List Frame) :
    Changes t (t.noteSentStreams frames) (fun j e => frames.foldl (noteOn j) e) := by
  induction frames generalizing t with
  | nil => exact Changes.refl t
  | cons frame rest ih =>
    cases frame with
    | stream f =>
      rw [noteSentStreams]
      cases hfind : t.findSendStreamEntry f.streamId with
      | none =>
        refine (ih t).congr (fun j e he => ?_)
        have hj : f.streamId ≠ j := by
          intro hj
          simp [hj, he] at hfind
        show _ = rest.foldl (noteOn j) (if f.streamId = j then noteSentEntry e f else e)
        rw [if_neg hj]
      | some entry =>
        have hid : (noteSentEntry entry f).streamId = f.streamId := by
          rw [(noteSentEntry_flow entry f).2]
          exact findSendStreamEntry_id hfind
        have hput := changes_put hfind (fun e => noteSentEntry e f) hid
        refine (hput.trans (ih _)).congr (fun j e _ => ?_)
        show _ = rest.foldl (noteOn j) (if f.streamId = j then noteSentEntry e f else e)
        by_cases hj : j = f.streamId
        · rw [if_pos hj, if_pos hj.symm]
        · rw [if_neg hj, if_neg (Ne.symm hj)]
    | _ => exact ih t

lemma foldl_noteOn_flow (j : Nat) (frames : List Frame) (e : StreamFlowEntry) :
    (frames.foldl (noteOn j) e).flow = e.flow := by
  induction frames generalizing e with
  | nil => rfl
  | cons frame rest ih =>
    rw [foldl_cons, ih]
    cases frame with
    | stream f =>
      show (if f.streamId = j then noteSentEntry e f else e).flow = e.flow
      split
      · exact (noteSentEntry_flow e f).1
      · rfl
    | _ => rfl

/-! ### Taking credit -/

lemma reserve_ok {flow' : SendFlow} (h : flow.reserve amount = .ok flow') :
    flow' = { flow with used := flow.used + amount } ∧ (amount = 0 ∨ amount ≤ flow.available) := by
  unfold SendFlow.reserve at h
  by_cases hzero : amount = 0
  · rw [if_pos hzero] at h
    cases h
    exact ⟨by rw [hzero]; rfl, .inl hzero⟩
  rw [if_neg hzero] at h
  obtain ⟨hfew, h⟩ := of_guard h nofun
  cases h
  exact ⟨rfl, .inr (by omega)⟩

lemma reserve_of_le (h : amount = 0 ∨ amount ≤ flow.available) :
    flow.reserve amount = .ok { flow with used := flow.used + amount } := by
  unfold SendFlow.reserve
  by_cases hzero : amount = 0
  · simp [hzero]
  · rw [if_neg hzero, if_neg]
    omega

/-- Every credit fits into the flow of its stream. -/
def Affords (t : StreamTable) (credits : List ReservedStreamCredit) : Prop :=
  ∀ c ∈ credits, ∀ e, t.findSendStreamEntry c.streamId = some e →
    c.bytes = 0 ∨ c.bytes ≤ e.flow.available

/-- **Credit for all streams is taken exactly when each affords its own.** -/
theorem reserveStreams_iff (hnodup : (credits.map (·.streamId)).Nodup) :
    (∃ t', t.reserveStreams credits = .ok t') ↔ t.Affords credits := by
  induction credits generalizing t with
  | nil => exact ⟨fun _ c hc => absurd hc not_mem_nil, fun _ => ⟨t, rfl⟩⟩
  | cons credit rest ih =>
    rw [map_cons, nodup_cons] at hnodup
    rw [reserveStreams]
    cases hfind : t.findSendStreamEntry credit.streamId with
    | none =>
      rw [ih hnodup.2]
      constructor
      · intro h c hc e he
        rcases mem_cons.mp hc with rfl | hc
        · simp [hfind] at he
        · exact h c hc e he
      · exact fun h c hc e he => h c (mem_cons_of_mem _ hc) e he
    | some entry =>
      dsimp only
      have hid : entry.streamId = credit.streamId := findSendStreamEntry_id hfind
      -- The other streams do not see what this one takes.
      have hothers : ∀ flow, (t.putSendStreamEntry { entry with flow := flow }).Affords rest ↔
          t.Affords rest := by
        intro flow
        have hput : ∀ c ∈ rest, (t.putSendStreamEntry
            { entry with flow := flow }).findSendStreamEntry c.streamId
            = t.findSendStreamEntry c.streamId := by
          intro c hc
          rw [findSendStreamEntry_put, if_neg]
          intro hsame
          exact hnodup.1 (mem_map.mpr ⟨c, hc, hsame.trans hid⟩)
        constructor
        · exact fun h c hc e he => h c hc e (by rw [hput c hc]; exact he)
        · exact fun h c hc e he => h c hc e (by rw [← hput c hc]; exact he)
      constructor
      · intro h
        obtain ⟨t', h⟩ := h
        cases hflow : entry.flow.reserve credit.bytes with
        | error e => simp [hflow] at h
        | ok flow =>
          rw [hflow] at h
          have hrest := (hothers flow).mp ((ih hnodup.2).mp ⟨t', h⟩)
          intro c hc e he
          rcases mem_cons.mp hc with rfl | hc
          · rw [hfind, Option.some.injEq] at he
            rw [← he]
            exact (reserve_ok hflow).2
          · exact hrest c hc e he
      intro h
      rw [reserve_of_le (h credit (by simp) entry hfind)]
      exact (ih hnodup.2).mpr
        ((hothers _).mpr (fun c hc e he => h c (mem_cons_of_mem _ hc) e he))

lemma reserveStreams_changes (hnodup : (credits.map (·.streamId)).Nodup)
    (h : t.reserveStreams credits = .ok t') :
    Changes t t' (fun j => withFlow
      (fun flow => { flow with used := flow.used + reservedStreamBytes credits j })) := by
  induction credits generalizing t with
  | nil =>
    cases h
    exact Changes.refl _
  | cons credit rest ih =>
    rw [map_cons, nodup_cons] at hnodup
    rw [reserveStreams] at h
    cases hfind : t.findSendStreamEntry credit.streamId with
    | none =>
      rw [hfind] at h
      refine (ih hnodup.2 h).congr (fun j e he => ?_)
      have hj : credit.streamId ≠ j := by
        intro hj
        simp [hj, he] at hfind
      simp [reservedStreamBytes_cons, hj]
    | some entry =>
      rw [hfind] at h
      dsimp only at h
      cases hflow : entry.flow.reserve credit.bytes with
      | error e => simp [hflow] at h
      | ok flow =>
        rw [hflow] at h
        dsimp only at h
        have hput := changes_put hfind
          (withFlow (fun flow => { flow with used := flow.used + credit.bytes }))
          (show entry.streamId = credit.streamId from findSendStreamEntry_id hfind)
        have heq : ({ entry with flow := flow } : StreamFlowEntry)
            = withFlow (fun flow => { flow with used := flow.used + credit.bytes }) entry := by
          simp [(reserve_ok hflow).1, withFlow]
        rw [heq] at h
        refine (hput.trans (ih hnodup.2 h)).congr (fun j e _ => ?_)
        by_cases hj : j = credit.streamId
        · have hnone : reservedStreamBytes rest j = 0 := by
            unfold reservedStreamBytes
            have hmiss : rest.find? (fun c => c.streamId == j) = none := by
              rw [find?_eq_none]
              intro c hc hbeq
              rw [beq_iff_eq] at hbeq
              exact hnodup.1 (by rw [← hj, ← hbeq]; exact mem_map_of_mem hc)
            rw [hmiss]
          simp [reservedStreamBytes_cons, hj.symm, hnone, withFlow]
        · simp [hj, reservedStreamBytes_cons, Ne.symm hj]

/-! ### Opening streams -/

/-- The entry a stream gets on first use. -/
def freshEntry (t : StreamTable) (streamId : Nat) : StreamFlowEntry :=
  { streamId := streamId, flow := SendFlow.init (t.initialSendStreamDataLimit streamId) }

/-- `t'` also has entries for the streams `ids`. -/
structure Opens (t t' : StreamTable) (ids : List Nat) : Prop where
  entries : ∀ j, t'.findSendStreamEntry j =
    (t.findSendStreamEntry j).or (if j ∈ ids then some (t.freshEntry j) else none)
  rest : t' = { t with sendStreams := t'.sendStreams }

lemma Opens.fresh (h : Opens t t' ids) (j : Nat) : t'.freshEntry j = t.freshEntry j := by
  rw [h.rest]
  rfl

lemma Opens.refl (t : StreamTable) : Opens t t [] := ⟨fun j => by simp, rfl⟩

lemma Opens.trans {ids' : List Nat} (h : Opens t t' ids) (h' : Opens t' t'' ids') :
    Opens t t'' (ids ++ ids') := by
  refine ⟨fun j => ?_, by rw [h'.rest, h.rest]⟩
  rw [h'.entries j, h.entries j, h.fresh]
  by_cases hj : j ∈ ids
  · simp [hj]
  · simp [hj]

lemma sendStreamEntry_error {e : Error} (h : t.sendStreamEntry streamId = (.error e, t')) :
    t' = t := by
  unfold sendStreamEntry at h
  split at h
  · cases h
  split at h
  · cases h
    rfl
  · cases h

lemma sendStreamEntry_opens (h : t.sendStreamEntry streamId = (.ok entry, t')) :
    Opens t t' [streamId] := by
  unfold sendStreamEntry at h
  cases hfind : t.findSendStreamEntry streamId with
  | some e =>
    rw [hfind] at h
    cases h
    refine ⟨fun j => ?_, rfl⟩
    by_cases hj : j = streamId
    · rw [hj, hfind]
      rfl
    · rw [if_neg (by simpa using hj), Option.or_none]
  | none =>
    rw [hfind] at h
    dsimp only at h
    split at h
    · cases h
    cases h
    refine ⟨fun j => ?_, rfl⟩
    unfold findSendStreamEntry at hfind ⊢
    rw [find?_append, find?_singleton]
    by_cases hj : j = streamId
    · rw [if_pos (by rw [hj, beq_self_eq_true]), if_pos (by rw [hj]; simp), hj]
      rfl
    · rw [if_neg (by rw [beq_iff_eq]; exact Ne.symm hj), if_neg (by simpa using hj)]

/-- Opening fails at one stream with those before it opened. -/
theorem openSendStreams_any (t : StreamTable) (credits : List ReservedStreamCredit) :
    ∃ ids, Opens t (t.openSendStreams credits).2 ids := by
  induction credits generalizing t with
  | nil => exact ⟨[], Opens.refl t⟩
  | cons credit rest ih =>
    rw [openSendStreams]
    rcases hopen : t.sendStreamEntry credit.streamId with ⟨e | entry, t₁⟩
    · have hsame : t₁ = t := sendStreamEntry_error hopen
      rw [hsame]
      exact ⟨[], Opens.refl t⟩
    · obtain ⟨ids, hrest⟩ := ih t₁
      exact ⟨_, (sendStreamEntry_opens hopen).trans hrest⟩

lemma openSendStreams_opens (h : t.openSendStreams credits = (.ok (), t')) :
    Opens t t' (credits.map (·.streamId)) := by
  induction credits generalizing t with
  | nil =>
    cases h
    exact Opens.refl _
  | cons credit rest ih =>
    rw [openSendStreams] at h
    rcases hopen : t.sendStreamEntry credit.streamId with ⟨e | entry, t₁⟩
    · simp [hopen] at h
    · rw [hopen] at h
      exact (sendStreamEntry_opens hopen).trans (ih h)

end StreamTable

end Netz.Quic
