/-
Stream-count credit.

A peer stream gives back one unit of the peer's stream limit when it is finished, and is marked.
No other call unmarks a stream or moves a limit, so over any run no stream gives back twice, and
each limit is what it began with and one more for each stream that gave back.
-/
import Netz.Proofs.WindowRuns

namespace Netz.Quic

open Lib List

namespace StreamTable

variable {t t' t₁ : StreamTable} {id : Nat} {entry : StreamRecvFlowEntry}

/-- The stream is marked: its unit was given back, or there was no room above the limit. -/
def Marked (t : StreamTable) (id : Nat) : Prop :=
  ∃ entry, t.findRecvStreamEntry id = some entry ∧ entry.streamCountCreditReleased = true

/-- The tables have the same limits and the same marked streams. -/
structure SameCredit (t t' : StreamTable) : Prop where
  config : t'.config = t.config
  limits : ∀ direction, t'.recvMaxStreams direction = t.recvMaxStreams direction
  marked : ∀ id, t'.Marked id ↔ t.Marked id

namespace SameCredit

lemma refl (t : StreamTable) : SameCredit t t := ⟨rfl, fun _ => rfl, fun _ => Iff.rfl⟩

lemma trans (h : SameCredit t t₁) (h' : SameCredit t₁ t') : SameCredit t t' :=
  ⟨h'.config.trans h.config, fun direction => (h'.limits direction).trans (h.limits direction),
    fun id => (h'.marked id).trans (h.marked id)⟩

lemma of_beside (h : Beside id t t') (hmarked : t'.Marked id ↔ t.Marked id) : SameCredit t t' := by
  refine ⟨h.config, fun direction => ?_, fun other => ?_⟩
  · cases direction with
    | bidirectional => exact h.recvMaxBidi
    | unidirectional => exact h.recvMaxUni
  by_cases hid : other = id
  · rw [hid]
    exact hmarked
  · unfold Marked
    rw [h.others other hid]

lemma of_streams (h : Beside id t t') (hstreams : t'.recvStreams = t.recvStreams) :
    SameCredit t t' := by
  apply of_beside h
  unfold Marked findRecvStreamEntry
  rw [hstreams]

lemma put (entry : StreamRecvFlowEntry) {old : StreamRecvFlowEntry}
    (hfind : t.findRecvStreamEntry entry.streamId = some old)
    (hmark : entry.streamCountCreditReleased = old.streamCountCreditReleased) :
    SameCredit t (t.putRecvStreamEntry entry) := by
  apply of_beside (Beside.put t entry)
  unfold Marked
  rw [find_put_self hfind, hfind]
  constructor
  · rintro ⟨found, hfound, hyes⟩
    cases hfound
    exact ⟨old, rfl, hmark ▸ hyes⟩
  rintro ⟨found, hfound, hyes⟩
  cases hfound
  exact ⟨entry, rfl, hmark ▸ hyes⟩

end SameCredit

/-! ### Calls that keep the credit -/

lemma recvStreamFlow_credit (hrun : t.recvStreamFlow id = (.ok entry, t₁)) :
    SameCredit t t₁ ∧ t₁.findRecvStreamEntry id = some entry ∧ entry.streamId = id := by
  obtain ⟨hopened, hfind, hbeside, -, -⟩ := recvStreamFlow_ok hrun
  refine ⟨SameCredit.of_beside hbeside ?_, hfind, hopened.streamId⟩
  unfold Marked
  rw [hfind]
  unfold recvStreamFlow at hrun
  cases hold : t.findRecvStreamEntry id with
  | some old =>
    rw [hold] at hrun
    cases hrun
    exact Iff.rfl
  | none =>
    rw [hold] at hrun
    dsimp only at hrun
    refine iff_of_false ?_ (fun ⟨_, hsome, _⟩ => by cases hsome)
    rintro ⟨found, hfound, hyes⟩
    cases hfound
    split at hrun
    · cases hrun
    split at hrun
    · cases hrun
    split at hrun
    · cases hrun
    · cases hrun
      cases hyes

lemma applyFinalSize_mark {mid : StreamRecvFlowEntry} {size : Nat} {final : Bool}
    (h : applyFinalSize entry size final = .ok mid) :
    mid.streamId = entry.streamId ∧
      mid.streamCountCreditReleased = entry.streamCountCreditReleased := by
  rw [(applyFinalSize_ok h).1]
  exact ⟨rfl, rfl⟩

lemma charged_credit (entry : StreamRecvFlowEntry) {old : StreamRecvFlowEntry} {amount : Nat}
    (hcharge : t₁.charge amount = .ok t') (hfind : t₁.findRecvStreamEntry entry.streamId = some old)
    (hmark : entry.streamCountCreditReleased = old.streamCountCreditReleased) :
    SameCredit t₁ (t'.putRecvStreamEntry entry) := by
  obtain ⟨-, hstreams, hbeside⟩ := charge_ok hcharge
  refine (SameCredit.of_streams (hbeside 0) hstreams).trans (SameCredit.put entry ?_ hmark)
  unfold findRecvStreamEntry at hfind ⊢
  rw [hstreams]
  exact hfind

lemma receiveStream_credit (t : StreamTable) (frame : StreamFrame) :
    SameCredit t (t.receiveStream frame).2 := by
  unfold receiveStream
  rcases hrun : t.recvStreamFlow frame.streamId with ⟨e | entry, t₁⟩
  · rw [recvStreamFlow_error hrun]
    exact SameCredit.refl t
  obtain ⟨hsame, hfind, hid⟩ := recvStreamFlow_credit hrun
  rw [← hid] at hfind
  cases checkedAdd frame.offset frame.data.length with
  | none => exact hsame
  | some stop =>
  dsimp only
  cases hfinal : applyFinalSize entry stop frame.fin with
  | error e => exact hsame
  | ok mid =>
  obtain ⟨hmid, hmark⟩ := applyFinalSize_mark hfinal
  rw [← hmid] at hfind
  dsimp only
  cases mid.flow.receive stop with
  | error e => exact hsame.trans (SameCredit.put mid hfind hmark)
  | ok flow =>
  rcases mid.recvState.insertTracked frame with ⟨e | newly, recvState⟩
  · exact hsame.trans (SameCredit.put { mid with flow := flow, recvState := recvState }
      hfind hmark)
  dsimp only
  cases hcharge : t₁.charge newly with
  | error e =>
    exact hsame.trans
      (SameCredit.put { mid with flow := flow, recvState := recvState } hfind hmark)
  | ok t₂ =>
    exact hsame.trans (charged_credit { mid with
        flow := flow
        recvState := recvState
        highestReceivedEnd := max mid.highestReceivedEnd stop } hcharge hfind hmark)

lemma receiveResetStream_credit (t : StreamTable) (reset : ResetStreamFrame) :
    SameCredit t (t.receiveResetStream reset).2 := by
  unfold receiveResetStream
  rcases hrun : t.recvStreamFlow reset.streamId with ⟨e | entry, t₁⟩
  · rw [recvStreamFlow_error hrun]
    exact SameCredit.refl t
  obtain ⟨hsame, hfind, hid⟩ := recvStreamFlow_credit hrun
  rw [← hid] at hfind
  dsimp only
  cases hfinal : applyFinalSize entry reset.finalSize true with
  | error e => exact hsame
  | ok mid =>
  obtain ⟨hmid, hmark⟩ := applyFinalSize_mark hfinal
  rw [← hmid] at hfind
  dsimp only
  cases mid.flow.receive reset.finalSize with
  | error e => exact hsame.trans (SameCredit.put mid hfind hmark)
  | ok flow =>
  have hput : SameCredit t (t₁.putRecvStreamEntry { mid with flow := flow }) :=
    hsame.trans (SameCredit.put { mid with flow := flow } hfind hmark)
  dsimp only
  split
  · exact hput
  cases hcharge : t₁.charge (reset.finalSize - mid.recvState.receivedByteCount) with
  | error e => exact hput
  | ok t₂ =>
    exact hsame.trans (charged_credit { mid with
        flow := flow
        highestReceivedEnd := max mid.highestReceivedEnd reset.finalSize
        reset := some ⟨reset.applicationErrorCode, reset.finalSize⟩ } hcharge hfind hmark)

lemma releaseReceivedCapacity_credit (t : StreamTable) (id amount : Nat) (sent : Bool) :
    SameCredit t (t.releaseReceivedCapacity id amount sent).2 := by
  unfold releaseReceivedCapacity
  split
  · exact SameCredit.refl t
  cases hfind : t.findRecvStreamEntry id with
  | none => exact SameCredit.refl t
  | some entry =>
  dsimp only
  split
  · exact SameCredit.refl t
  split
  · exact SameCredit.refl t
  rcases entry.recvState.consume amount with ⟨e | u, recvState⟩
  · exact SameCredit.refl t
  have hflow : SameCredit t { t with recvFlow := (t.recvFlow.consume amount).2 } :=
    ⟨rfl, fun direction => by cases direction <;> rfl, fun _ => Iff.rfl⟩
  have hid := streamId_of_find hfind
  rw [← hid] at hfind
  exact hflow.trans (SameCredit.put
    { entry with flow := (entry.flow.consume amount).2, recvState := recvState }
    hfind rfl)

lemma consumeStreamReceived_credit (t : StreamTable) (id amount : Nat) :
    SameCredit t (t.consumeStreamReceived id amount).2 := by
  unfold consumeStreamReceived
  rcases hrun : t.recvStreamFlow id with ⟨e | entry, t₁⟩
  · rw [recvStreamFlow_error hrun]
    exact SameCredit.refl t
  obtain ⟨hsame, hfind, hid⟩ := recvStreamFlow_credit hrun
  rw [← hid] at hfind
  exact hsame.trans
    (SameCredit.put { entry with flow := (entry.flow.consume amount).2 } hfind rfl)

/-! ### Giving credit back -/

lemma marked_put {old : StreamRecvFlowEntry} (hfind : t.findRecvStreamEntry entry.streamId = some old)
    (hyes : entry.streamCountCreditReleased = true) (other : Nat) :
    (t.putRecvStreamEntry entry).Marked other ↔ t.Marked other ∨ other = entry.streamId := by
  by_cases hid : other = entry.streamId
  · rw [hid]
    exact iff_of_true ⟨entry, find_put_self hfind, hyes⟩ (.inr rfl)
  unfold Marked
  rw [find_put_ne t entry other hid]
  exact ⟨.inl, fun h => h.resolve_right hid⟩

/-- What a call to `releaseCompletedPeerStream` answers and does. -/
inductive Credit (t : StreamTable) (id : Nat) : Except Error Bool × StreamTable → Prop
  /-- The stream is not finished, or already marked, or the packet did not go out. -/
  | nothing (result : Except Error Bool) (hnot : result ≠ .ok true) : Credit t id (result, t)
  /-- The limit has nowhere to go. -/
  | full {t' : StreamTable} (hfull : t.recvMaxStreams (streamDirection id) = maxStreamCount)
      (config : t'.config = t.config)
      (limits : ∀ direction, t'.recvMaxStreams direction = t.recvMaxStreams direction)
      (marked : ∀ other, t'.Marked other ↔ t.Marked other ∨ other = id) :
      Credit t id (.ok false, t')
  | released {t' : StreamTable} (hpeer : streamInitiatedByLocal t.config.localEndpoint id = false)
      (hnew : ¬ t.Marked id) (config : t'.config = t.config)
      (limits : ∀ direction, t'.recvMaxStreams direction =
        t.recvMaxStreams direction + if streamDirection id = direction then 1 else 0)
      (marked : ∀ other, t'.Marked other ↔ t.Marked other ∨ other = id) :
      Credit t id (.ok true, t')

/-- **One call releases a stream that was never released, and one unit for it.** -/
theorem releaseCompletedPeerStream_credit (t : StreamTable) (id : Nat) (sent : Bool) :
    Credit t id (t.releaseCompletedPeerStream id sent) := by
  rcases releaseCompletedPeerStream_cases t id sent with
    ⟨result, hnot, hrun⟩ | ⟨hpeer, entry, marked, hfind, hdone, rfl, hrun⟩
  · rw [hrun]
    exact .nothing result hnot
  have hid := streamId_of_find hfind
  have hmarked : ∀ other,
      (t.putRecvStreamEntry { entry with streamCountCreditReleased := true }).Marked other ↔
        t.Marked other ∨ other = id := by
    rw [← hid] at hfind ⊢
    exact marked_put hfind rfl
  rcases hrun with ⟨hfull, hrun⟩ | ⟨_, _, hrun, rfl, rfl⟩
  · rw [hrun]
    exact .full hfull rfl (fun direction => by cases direction <;> rfl) hmarked
  have hnew : ¬ t.Marked id := by
    rintro ⟨found, hfound, hyes⟩
    rw [hfind, Option.some.injEq] at hfound
    rw [← hfound, hdone] at hyes
    cases hyes
  rw [hrun]
  exact .released hpeer hnew rfl (fun direction => by cases direction <;> rfl) hmarked

/-! ### Runs -/

/-- The calls that finish streams, and the one that gives their credit back. -/
inductive CountOp where
  | stream (frame : StreamFrame)
  | reset (reset : ResetStreamFrame)
  | releaseReceivedCapacity (streamId amount : Nat) (sent : Bool)
  | consumeReceived (amount : Nat)
  | consumeStreamReceived (streamId amount : Nat)
  | releaseCompletedPeerStream (streamId : Nat) (sent : Bool)
  /-- Any call that sends on streams: it leaves these entries of the sending halves. -/
  | send (sendStreams : List StreamFlowEntry)

/-- A call, and whether it answered that a stream was released. -/
def countStep (t : StreamTable) : CountOp → Bool × StreamTable
  | .stream frame => (false, (t.receiveStream frame).2)
  | .reset reset => (false, (t.receiveResetStream reset).2)
  | .releaseReceivedCapacity streamId amount sent =>
    (false, (t.releaseReceivedCapacity streamId amount sent).2)
  | .consumeReceived amount => (false, t.consumeReceived amount)
  | .consumeStreamReceived streamId amount => (false, (t.consumeStreamReceived streamId amount).2)
  | .releaseCompletedPeerStream streamId sent =>
    match t.releaseCompletedPeerStream streamId sent with
    | (.ok released, t) => (released, t)
    | (.error _, t) => (false, t)
  | .send sendStreams => (false, { t with sendStreams := sendStreams })

/-- The stream for which the call sent a MAX_STREAMS frame. -/
def creditOf (e : Event StreamTable CountOp Bool) : Option Nat :=
  match e.input with
  | .releaseCompletedPeerStream streamId _ => if e.output then some streamId else none
  | _ => none

/-- What the history of a run says about the credit of its table. -/
structure Counted (t₀ : StreamTable) (released : List Nat) (t : StreamTable) : Prop where
  config : t.config = t₀.config
  nodup : released.Nodup
  peers : ∀ id ∈ released, streamInitiatedByLocal t₀.config.localEndpoint id = false
  limits : ∀ direction, t.recvMaxStreams direction = t₀.recvMaxStreams direction +
    (released.filter (fun id => streamDirection id = direction)).length
  marked : ∀ id ∈ released, t.Marked id

lemma counted_init (t : StreamTable) : Counted t [] t :=
  ⟨rfl, nodup_nil, (by simp), fun _ => rfl, (by simp)⟩

variable {t₀ : StreamTable} {released : List Nat}

lemma Counted.same (h : Counted t₀ released t)
    (hsame : SameCredit t t') : Counted t₀ released t' :=
  ⟨hsame.config.trans h.config, h.nodup, h.peers,
    fun direction => (hsame.limits direction).trans (h.limits direction),
    fun id hid => (hsame.marked id).mpr (h.marked id hid)⟩

lemma Counted.credit (h : Counted t₀ released t)
    {result : Except Error Bool} (hcred : Credit t id (result, t')) :
    Counted t₀ (released ++ if result = .ok true then [id] else []) t' := by
  cases hcred with
  | nothing _ hnot => simp [hnot, h]
  | full hfull hconfig hlimits hmarked =>
    rw [if_neg (by simp), append_nil]
    exact ⟨hconfig.trans h.config, h.nodup, h.peers,
      fun direction => (hlimits direction).trans (h.limits direction),
      fun other hother => (hmarked other).mpr (.inl (h.marked other hother))⟩
  | released hpeer hnew hconfig hlimits hmarked =>
    refine ⟨hconfig.trans h.config, ?_, ?_, fun direction => ?_, ?_⟩
    · refine nodup_append.mpr ⟨h.nodup, nodup_singleton id, fun a ha b hb hab => ?_⟩
      rw [mem_singleton.mp hb] at hab
      exact hnew (hab ▸ h.marked a ha)
    · intro other hother
      rcases mem_append.mp hother with hold | hlast
      · exact h.peers other hold
      · simp [mem_singleton.mp hlast, ← h.config, hpeer]
    · rw [hlimits, h.limits, filter_append, Nat.add_assoc]
      by_cases hdirection : streamDirection id = direction
      · simp [hdirection]
      · simp [hdirection]
    intro other hother
    rw [hmarked]
    rcases mem_append.mp hother with hold | hlast
    · exact .inl (h.marked other hold)
    · exact .inr (mem_singleton.mp hlast)

/-- **One call.** -/
theorem Counted.step (h : Counted t₀ released t) (op : CountOp) :
    Counted t₀ (released ++ (creditOf (event countStep t op)).toList) (t.countStep op).2 := by
  cases op with
  | releaseCompletedPeerStream id sent =>
    have hcred := releaseCompletedPeerStream_credit t id sent
    rcases hrun : t.releaseCompletedPeerStream id sent with ⟨e | answer, t'⟩
    · have hstep : t.countStep (.releaseCompletedPeerStream id sent) = (false, t') := by
        simp [hrun, countStep]
      rw [hrun] at hcred
      have hcall := h.credit hcred
      unfold event
      rw [hstep]
      exact hcall
    have hstep : t.countStep (.releaseCompletedPeerStream id sent) = (answer, t') := by
      unfold countStep
      dsimp only
      rw [hrun]
    rw [hrun] at hcred
    have hcall := h.credit hcred
    unfold event
    rw [hstep]
    cases answer with
    | false | true => exact hcall
  | stream frame =>
    have hsame := h.same (receiveStream_credit t frame)
    rw [← append_nil released] at hsame
    exact hsame
  | reset reset =>
    have hsame := h.same (receiveResetStream_credit t reset)
    rw [← append_nil released] at hsame
    exact hsame
  | releaseReceivedCapacity id amount sent =>
    have hsame := h.same (releaseReceivedCapacity_credit t id amount sent)
    rw [← append_nil released] at hsame
    exact hsame
  | consumeReceived amount =>
    have hcred : SameCredit t (t.consumeReceived amount) :=
      ⟨rfl, fun direction => by cases direction <;> rfl, fun _ => Iff.rfl⟩
    have hsame := h.same hcred
    rw [← append_nil released] at hsame
    exact hsame
  | consumeStreamReceived id amount =>
    have hsame := h.same (consumeStreamReceived_credit t id amount)
    rw [← append_nil released] at hsame
    exact hsame
  | send sendStreams =>
    have hcred : SameCredit t { t with sendStreams := sendStreams } :=
      ⟨rfl, fun direction => by cases direction <;> rfl, fun _ => Iff.rfl⟩
    have hsame := h.same hcred
    rw [← append_nil released] at hsame
    exact hsame

/--
**Credit is released once.**  The streams for which a run released credit are distinct streams of
the peer, and each limit is the initial one and one more for each of them.
-/
theorem stream_credit_released_once {config : ConnectionConfig} (hinit : init config = .ok t)
    (ops : List CountOp) :
    let released := (trace countStep t ops).filterMap creditOf
    released.Nodup ∧
      (∀ id ∈ released, streamInitiatedByLocal config.localEndpoint id = false) ∧
      (exec countStep t ops).recvMaxStreamsBidi = config.initialReceiveMaxStreamsBidi +
        (released.filter (fun id => streamDirection id = .bidirectional)).length ∧
      (exec countStep t ops).recvMaxStreamsUni = config.initialReceiveMaxStreamsUni +
        (released.filter (fun id => streamDirection id = .unidirectional)).length := by
  have hstart : t.config = config ∧ t.recvMaxStreamsBidi = config.initialReceiveMaxStreamsBidi ∧
      t.recvMaxStreamsUni = config.initialReceiveMaxStreamsUni := by
    unfold init at hinit
    split at hinit
    · cases hinit
    · cases hinit
      exact ⟨rfl, rfl, rfl⟩
  obtain ⟨hconfig, hbidi, huni⟩ := hstart
  have hrun := trace_induction countStep (fun _ _ => True)
    (fun history s => Counted t (history.filterMap creditOf) s) (counted_init t)
    (fun history s op h _ => by
      have hone := h.step op
      rw [filterMap_append, filterMap_cons]
      cases hcredit : creditOf (event countStep s op) with
      | none =>
        rw [hcredit] at hone
        exact hone
      | some id =>
        rw [hcredit] at hone
        exact hone) ops (fun _ _ => trivial)
  rw [← hconfig, ← hbidi, ← huni] at *
  exact ⟨hrun.nodup, hrun.peers, hrun.limits .bidirectional, hrun.limits .unidirectional⟩

/-- A finished stream gives its unit back once, however often it is asked to. -/
theorem stream_credit_released_once_eight_bytes :
    init eightByteServer = .ok eightByteTable ∧
      (exec countStep eightByteTable [.stream ⟨2, 0, true, [1]⟩, .releaseReceivedCapacity 2 1 true,
          .releaseCompletedPeerStream 2 false, .releaseCompletedPeerStream 2 true,
          .releaseCompletedPeerStream 2 true]).recvMaxStreamsUni = 2 ^ 60 - 1 + 1 :=
  ⟨eightByteTable_init,
    (stream_credit_released_once eightByteTable_init
      [.stream ⟨2, 0, true, [1]⟩, .releaseReceivedCapacity 2 1 true,
        .releaseCompletedPeerStream 2 false, .releaseCompletedPeerStream 2 true,
        .releaseCompletedPeerStream 2 true]).2.2.2⟩

end StreamTable

end Netz.Quic
