/-
The stream table: what accepted frames do to it.

`EntryWF A entry` ties the entry of a stream to the set `A` of offsets that have arrived
on it.  An accepted STREAM frame adds its offsets to `A` and charges the connection for
the new ones; an accepted RESET_STREAM leaves `A` alone and charges what is missing up to
the final size.  Neither touches another stream.

A RESET_STREAM is recorded in the entry, not in its `RecvState`: from then on the two may
disagree about the final size, and the weaker one is what the preflight looks at.
-/
import Netz.Lib.Table
import Netz.Lib.Reader
import Netz.Proofs.Stream
import Netz.Quic.Streams

namespace Netz.Quic

open Lib RecvState

namespace RecvFlow

variable {f : RecvFlow} {stop limit window maxWindow : Nat}

lemma receive_ok {f' : RecvFlow} (h : f.receive stop = .ok f') :
    stop ≤ f.limit ∧ f'.limit = f.limit := by
  unfold receive at h
  obtain ⟨hbig, h⟩ := of_guard h nofun
  by_cases hold : stop ≤ f.highestReceived
  · rw [if_pos hold, Except.ok.injEq] at h
    exact ⟨by omega, by rw [h]⟩
  · rw [if_neg hold, Except.ok.injEq] at h
    exact ⟨by omega, by rw [← h]⟩

lemma receive_of_le (h : stop ≤ f.limit) : ∃ f', f.receive stop = .ok f' := by
  unfold receive
  rw [if_neg (by omega)]
  by_cases hold : stop ≤ f.highestReceived
  · exact ⟨f, by rw [if_pos hold]⟩
  · exact ⟨_, by rw [if_neg hold]⟩

lemma maybeGrowWindow_limit (f : RecvFlow) : f.maybeGrowWindow.limit = f.limit := by
  unfold maybeGrowWindow
  by_cases h₁ : f.maxWindow ≤ f.window
  · rw [if_pos h₁]
  rw [if_neg h₁]
  by_cases h₂ : f.consumed - f.autotuneEpochConsumed ≤ f.window / 4
  · rw [if_pos h₂]
  · rw [if_neg h₂]

lemma advanceLimit_limit (f : RecvFlow) : f.limit ≤ f.advanceLimit.2.limit := by
  have hgrow := maybeGrowWindow_limit f
  unfold advanceLimit
  by_cases hhalf : f.limit - f.consumed ≤ f.window / 2
  · rw [if_pos hhalf]
    by_cases hnone : min (saturatingAdd f.maybeGrowWindow.consumed f.maybeGrowWindow.window) varintMax
        ≤ f.maybeGrowWindow.limit
    · rw [if_pos hnone]
      exact Nat.le_of_eq hgrow.symm
    rw [if_neg hnone]
    simp only
    omega
  · rw [if_neg hhalf]

lemma consume_limit (f : RecvFlow) (amount : Nat) : f.limit ≤ (f.consume amount).2.limit := by
  unfold consume
  by_cases h₁ : amount = 0
  · rw [if_pos h₁]
  rw [if_neg h₁]
  by_cases h₂ : f.highestReceived ≤ f.consumed
  · rw [if_pos h₂]
  rw [if_neg h₂]
  exact advanceLimit_limit
    { f with consumed := min f.highestReceived (saturatingAdd f.consumed amount) }

lemma initWithMaxWindow_limit (h : initWithMaxWindow limit window maxWindow = .ok f) :
    f.limit = limit := by
  unfold initWithMaxWindow at h
  obtain ⟨-, h⟩ := of_guard h nofun
  obtain ⟨h₂, h⟩ := of_guard h nofun
  rw [Except.ok.injEq] at h
  rw [← h]

lemma initWithMaxWindow_error {e : Error}
    (h : initWithMaxWindow limit window maxWindow = .error e) : e = .invalidWindow := by
  unfold initWithMaxWindow at h
  by_cases h₁ : window = 0 ∨ maxWindow = 0
  · rw [if_pos h₁, Except.error.injEq] at h
    exact h.symm
  rw [if_neg h₁] at h
  by_cases h₂ : varintMax < limit ∨ varintMax < window ∨ varintMax < maxWindow
  · rw [if_pos h₂, Except.error.injEq] at h
    exact h.symm
  · simp [h₂] at h

end RecvFlow

namespace RecvState

variable {A : Finset Nat} {s s' : RecvState} {frame : StreamFrame} {n : Nat}

lemma Tracks.contiguous_le_high (h : Tracks A s) : s.contiguousEnd ≤ s.highestReceivedEnd := by
  by_cases hzero : s.contiguousEnd = 0
  · omega
  · have := h.high _ (h.prefixIn (s.contiguousEnd - 1) (by omega))
    omega

/-- What an accepted frame does to the two numbers the final size is checked with. -/
theorem insertTracked_final (h : Tracks A s) (hins : s.insertTracked frame = (.ok n, s')) :
    s'.streamId = s.streamId ∧
    s'.finalSize = (if frame.fin then some (frame.offset + frame.data.length) else s.finalSize) ∧
    s'.highestReceivedEnd = max s.highestReceivedEnd (frame.offset + frame.data.length) := by
  obtain ⟨-, ⟨-, hs, hle⟩ | ⟨-, -, hs⟩⟩ := insertTracked_cases hins
  · have hhigh := h.contiguous_le_high
    have hst := h.storageLeRead
    have hrd := h.readLeContiguous
    rw [hs]
    unfold noteFinal
    by_cases hfin : frame.fin = true
    · rw [if_pos hfin, if_pos hfin]
      refine ⟨rfl, rfl, ?_⟩
      show s.highestReceivedEnd = _
      omega
    rw [if_neg hfin, if_neg hfin]
    refine ⟨rfl, rfl, ?_⟩
    omega
  · rw [hs]
    exact ⟨rfl, rfl, rfl⟩

end RecvState

namespace StreamTable

/-! ### Lookups -/

section Lookups

variable (t : StreamTable) (entry : StreamRecvFlowEntry) (id : Nat)

lemma find_put : (t.putRecvStreamEntry entry).findRecvStreamEntry id
    = if id = entry.streamId then (t.findRecvStreamEntry id).map (fun _ => entry)
      else t.findRecvStreamEntry id :=
  find?_replace (fun e : StreamRecvFlowEntry => e.streamId) t.recvStreams entry id

lemma find_put_ne (h : id ≠ entry.streamId) :
    (t.putRecvStreamEntry entry).findRecvStreamEntry id = t.findRecvStreamEntry id := by
  rw [find_put, if_neg h]

variable {t entry id}

lemma find_put_self {old : StreamRecvFlowEntry}
    (h : t.findRecvStreamEntry entry.streamId = some old) :
    (t.putRecvStreamEntry entry).findRecvStreamEntry entry.streamId = some entry := by
  simp [find_put, h]

lemma streamId_of_find (h : t.findRecvStreamEntry id = some entry) : entry.streamId = id :=
  key_of_find? (fun e : StreamRecvFlowEntry => e.streamId) h

end Lookups

/-- The tables agree on everything but the entry of one stream and the connection's charge. -/
structure Beside (id : Nat) (t t' : StreamTable) : Prop where
  config : t'.config = t.config
  sendStreams : t'.sendStreams = t.sendStreams
  recvMaxBidi : t'.recvMaxStreamsBidi = t.recvMaxStreamsBidi
  recvMaxUni : t'.recvMaxStreamsUni = t.recvMaxStreamsUni
  limit : t'.recvFlow.limit = t.recvFlow.limit
  others : ∀ other, other ≠ id → t'.findRecvStreamEntry other = t.findRecvStreamEntry other

namespace Beside

lemma refl (id : Nat) (t : StreamTable) : Beside id t t := ⟨rfl, rfl, rfl, rfl, rfl, fun _ _ => rfl⟩

lemma trans {id : Nat} {t₁ t₂ t₃ : StreamTable} (h₁ : Beside id t₁ t₂) (h₂ : Beside id t₂ t₃) :
    Beside id t₁ t₃ :=
  ⟨h₂.config.trans h₁.config, h₂.sendStreams.trans h₁.sendStreams,
    h₂.recvMaxBidi.trans h₁.recvMaxBidi, h₂.recvMaxUni.trans h₁.recvMaxUni,
    h₂.limit.trans h₁.limit, fun o ho => (h₂.others o ho).trans (h₁.others o ho)⟩

lemma put (t : StreamTable) (entry : StreamRecvFlowEntry) :
    Beside entry.streamId t (t.putRecvStreamEntry entry) :=
  ⟨rfl, rfl, rfl, rfl, rfl, fun o ho => find_put_ne t entry o ho⟩

end Beside

/-- The entry of a stream that has just been opened. -/
structure Fresh (t : StreamTable) (id : Nat) (entry : StreamRecvFlowEntry) : Prop where
  streamId : entry.streamId = id
  recvState : entry.recvState = RecvState.init id (t.maxBuffered id)
  limit : entry.flow.limit = t.initialReceiveStreamDataLimit id
  high : entry.highestReceivedEnd = 0
  final : entry.finalSize = none
  reset : entry.reset = none

/-- The entry a frame for the stream works on. -/
def Opened (t : StreamTable) (id : Nat) (entry : StreamRecvFlowEntry) : Prop :=
  t.findRecvStreamEntry id = some entry ∨
    (t.findRecvStreamEntry id = none ∧ Fresh t id entry)

variable {t : StreamTable} {entry : StreamRecvFlowEntry} {id : Nat}

lemma Opened.streamId (h : Opened t id entry) : entry.streamId = id := by
  rcases h with hold | hnew
  · exact streamId_of_find hold
  · exact hnew.2.streamId

variable {t₁ t' : StreamTable} {size amount : Nat} {final : Bool} {old : StreamRecvFlowEntry}
  {reset : ResetStreamFrame} {flow : RecvFlow}

lemma recvStreamFlow_ok (h : t.recvStreamFlow id = (.ok entry, t₁)) :
    Opened t id entry ∧ t₁.findRecvStreamEntry id = some entry ∧ Beside id t t₁ ∧
      t₁.recvDataTotal = t.recvDataTotal ∧ t₁.recvFlow = t.recvFlow := by
  unfold recvStreamFlow at h
  cases hfind : t.findRecvStreamEntry id with
  | some old =>
    rw [hfind] at h
    simp only [Prod.mk.injEq, Except.ok.injEq] at h
    obtain ⟨h₁, h₂⟩ := h
    subst h₁ h₂
    exact ⟨.inl hfind, hfind, Beside.refl id _, rfl, rfl⟩
  | none =>
    rw [hfind] at h
    cases hv : t.validateStreamReceiveFrameId id with
    | error e => rw [hv] at h; simp at h
    | ok u =>
      rw [hv] at h
      cases hc : t.validatePeerStreamCount id with
      | error e => rw [hc] at h; simp at h
      | ok u =>
        rw [hc] at h
        cases hw : RecvFlow.initWithMaxWindow (t.initialReceiveStreamDataLimit id)
            t.config.streamReceiveWindow
            (t.config.maxStreamReceiveWindow.getD t.config.streamReceiveWindow) with
        | error e => rw [hw] at h; simp at h
        | ok flow =>
          rw [hw] at h
          simp only [Prod.mk.injEq, Except.ok.injEq] at h
          obtain ⟨h₁, h₂⟩ := h
          subst h₁ h₂
          have hnew := find?_append_singleton (fun e : StreamRecvFlowEntry => e.streamId)
            t.recvStreams ⟨id, flow, RecvState.init id (t.maxBuffered id), 0, none, none, false⟩
          refine ⟨.inr ⟨hfind, rfl, rfl, RecvFlow.initWithMaxWindow_limit hw, rfl, rfl, rfl⟩,
            ?_, ⟨rfl, rfl, rfl, rfl, rfl, ?_⟩, rfl, rfl⟩
          · simp [hnew id hfind, findRecvStreamEntry]
          · intro other hne
            simp [hnew other hfind, hne, findRecvStreamEntry]

lemma recvStreamFlow_error {e : Error} (h : t.recvStreamFlow id = (.error e, t₁)) : t₁ = t := by
  unfold recvStreamFlow at h
  cases hfind : t.findRecvStreamEntry id with
  | some old => rw [hfind] at h; simp at h
  | none =>
    rw [hfind] at h
    cases hv : t.validateStreamReceiveFrameId id with
    | error e => rw [hv] at h; simp only [Prod.mk.injEq] at h; exact h.2.symm
    | ok u =>
      rw [hv] at h
      cases hc : t.validatePeerStreamCount id with
      | error e => rw [hc] at h; simp only [Prod.mk.injEq] at h; exact h.2.symm
      | ok u =>
        rw [hc] at h
        cases hw : RecvFlow.initWithMaxWindow (t.initialReceiveStreamDataLimit id)
            t.config.streamReceiveWindow
            (t.config.maxStreamReceiveWindow.getD t.config.streamReceiveWindow) with
        | error e => rw [hw] at h; simp only [Prod.mk.injEq] at h; exact h.2.symm
        | ok flow => rw [hw] at h; simp at h

/-! ### Accepted frames -/

/-- The entry with the final size that a frame up to `size` leaves. -/
def withFinal (entry : StreamRecvFlowEntry) (size : Nat) (final : Bool) : StreamRecvFlowEntry :=
  { entry with finalSize := if final then some size else entry.finalSize }

lemma applyFinalSize_ok {entry mid : StreamRecvFlowEntry}
    (h : applyFinalSize entry size final = .ok mid) :
    mid = withFinal entry size final ∧
    (final = true → entry.highestReceivedEnd ≤ size) ∧
    (∀ known, entry.finalSize = some known → size ≤ known ∧ (final = true → size = known)) := by
  unfold applyFinalSize at h
  obtain ⟨hlow, h⟩ := of_guard h nofun
  have hhigh : final = true → entry.highestReceivedEnd ≤ size := by
    intro hf
    by_contra hc
    exact hlow ⟨hf, by omega⟩
  unfold withFinal
  cases hknown : entry.finalSize with
  | none =>
    rw [hknown] at h
    simp only [Except.ok.injEq] at h
    refine ⟨?_, hhigh, by simp⟩
    rw [← h]
    by_cases hf : final = true
    · rw [if_pos hf, if_pos hf]
    · rw [if_neg hf, if_neg hf, ← hknown]
  | some known =>
    rw [hknown] at h
    simp only at h
    obtain ⟨hbig, h⟩ := of_guard h nofun
    obtain ⟨hne, h⟩ := of_guard h nofun
    rw [Except.ok.injEq] at h
    have heq : final = true → size = known := by
      intro hf
      by_contra hc
      exact hne ⟨hf, hc⟩
    refine ⟨?_, hhigh, ?_⟩
    · rw [← h]
      by_cases hf : final = true
      · rw [if_pos hf, heq hf, ← hknown]
      · rw [if_neg hf, ← hknown]
    intro k hk
    rw [Option.some.injEq] at hk
    subst hk
    exact ⟨by omega, heq⟩

lemma applyFinalSize_of_agree (hhigh : final = true → entry.highestReceivedEnd ≤ size)
    (hknown : ∀ known, entry.finalSize = some known → size ≤ known ∧ (final = true → size = known)) :
    applyFinalSize entry size final = .ok (withFinal entry size final) := by
  unfold applyFinalSize withFinal
  rw [if_neg (by intro hc; have := hhigh hc.1; omega)]
  cases hk : entry.finalSize with
  | none =>
    simp only
    by_cases hf : final = true
    · rw [if_pos hf, if_pos hf]
    · rw [if_neg hf, if_neg hf, ← hk]
  | some known =>
    obtain ⟨hle, heq⟩ := hknown known hk
    simp only
    rw [if_neg (by omega), if_neg (by intro hc; exact hc.2 (heq hc.1))]
    by_cases hf : final = true
    · rw [if_pos hf, heq hf, ← hk]
    · rw [if_neg hf, ← hk]

lemma charge_ok (h : t.charge amount = .ok t') :
    t'.recvDataTotal = t.recvDataTotal + amount ∧ t'.recvStreams = t.recvStreams ∧
      ∀ id, Beside id t t' := by
  unfold charge at h
  by_cases hzero : amount = 0
  · rw [if_pos hzero, Except.ok.injEq] at h
    subst h
    exact ⟨by omega, rfl, fun id => Beside.refl id _⟩
  rw [if_neg hzero] at h
  cases hadd : checkedAdd t.recvDataTotal amount with
  | none => rw [hadd] at h; simp at h
  | some next =>
    rw [hadd] at h
    simp only at h
    obtain ⟨hnext, -⟩ := checkedAdd_eq_some.mp hadd
    cases hrecv : t.recvFlow.receive next with
    | error e => rw [hrecv] at h; simp at h
    | ok flow =>
      rw [hrecv] at h
      simp only [Except.ok.injEq] at h
      subst h
      exact ⟨hnext, rfl, fun id =>
        ⟨rfl, rfl, rfl, rfl, (RecvFlow.receive_ok hrecv).2, fun _ _ => rfl⟩⟩

/-- The entry a STREAM frame leaves, given what its insertion made of the stream. -/
def afterStream (entry : StreamRecvFlowEntry) (frame : StreamFrame) (flow : RecvFlow)
    (recvState : RecvState) : StreamRecvFlowEntry :=
  { withFinal entry (frame.offset + frame.data.length) frame.fin with
    flow := flow
    recvState := recvState
    highestReceivedEnd := max entry.highestReceivedEnd (frame.offset + frame.data.length) }

def afterReset (entry : StreamRecvFlowEntry) (reset : ResetStreamFrame) (flow : RecvFlow) :
    StreamRecvFlowEntry :=
  { withFinal entry reset.finalSize true with
    flow := flow
    highestReceivedEnd := max entry.highestReceivedEnd reset.finalSize
    reset := some ⟨reset.applicationErrorCode, reset.finalSize⟩ }

/-- Charging the connection and writing the entry back, in one. -/
theorem find_charge_put {t t₂ : StreamTable} (hfind : t.findRecvStreamEntry id = some old)
    (hcharge : t.charge amount = .ok t₂) (hid : entry.streamId = id) :
    (t₂.putRecvStreamEntry entry).findRecvStreamEntry id = some entry ∧
    Beside id t (t₂.putRecvStreamEntry entry) := by
  obtain ⟨-, hstreams, hbeside⟩ := charge_ok hcharge
  subst hid
  refine ⟨find_put_self (?_ : _ = some old), (hbeside _).trans (Beside.put t₂ entry)⟩
  unfold findRecvStreamEntry at hfind ⊢
  rw [hstreams]
  exact hfind

/-- The same after the stream is opened. -/
theorem charge_put {t t₂ : StreamTable}
    (hopen : t.recvStreamFlow id = (.ok old, t₁)) (hcharge : t₁.charge amount = .ok t₂)
    (hid : entry.streamId = id) :
    (t₂.putRecvStreamEntry entry).findRecvStreamEntry id = some entry ∧
    Beside id t (t₂.putRecvStreamEntry entry) ∧
    (t₂.putRecvStreamEntry entry).recvDataTotal = t.recvDataTotal + amount := by
  obtain ⟨-, hfind₁, hbeside₁, htotal₁, -⟩ := recvStreamFlow_ok hopen
  obtain ⟨hfind₂, hbeside₂⟩ := find_charge_put hfind₁ hcharge hid
  refine ⟨hfind₂, hbeside₁.trans hbeside₂, ?_⟩
  rw [← htotal₁]
  exact (charge_ok hcharge).1

/-- **An accepted STREAM frame changes its own stream, and charges the new offsets.** -/
theorem receiveStream_ok {frame : StreamFrame} (h : t.receiveStream frame = (.ok (), t')) :
    ∃ old flow newly recvState,
      Opened t frame.streamId old ∧
      (frame.fin = true → old.highestReceivedEnd ≤ frame.offset + frame.data.length) ∧
      (∀ known, old.finalSize = some known → frame.offset + frame.data.length ≤ known ∧
        (frame.fin = true → frame.offset + frame.data.length = known)) ∧
      frame.offset + frame.data.length ≤ old.flow.limit ∧ flow.limit = old.flow.limit ∧
      old.recvState.insertTracked frame = (.ok newly, recvState) ∧
      t'.findRecvStreamEntry frame.streamId = some (afterStream old frame flow recvState) ∧
      Beside frame.streamId t t' ∧ t'.recvDataTotal = t.recvDataTotal + newly := by
  unfold receiveStream at h
  cases hopen : t.recvStreamFlow frame.streamId with
  | mk r t₁ =>
    rw [hopen] at h
    cases r with
    | error e => simp at h
    | ok old =>
      obtain ⟨hopened, -, -, -, -⟩ := recvStreamFlow_ok hopen
      cases hadd : checkedAdd frame.offset frame.data.length with
      | none => rw [hadd] at h; simp at h
      | some stop =>
        rw [hadd] at h
        obtain ⟨hstop, -⟩ := checkedAdd_eq_some.mp hadd
        subst hstop
        simp only at h
        cases hfinal : applyFinalSize old (frame.offset + frame.data.length) frame.fin with
        | error e => rw [hfinal] at h; simp at h
        | ok mid =>
          rw [hfinal] at h
          obtain ⟨hmid, hhigh, hknown⟩ := applyFinalSize_ok hfinal
          subst hmid
          simp only at h
          cases hflow : (withFinal old (frame.offset + frame.data.length)
              frame.fin).flow.receive (frame.offset + frame.data.length) with
          | error e => rw [hflow] at h; simp at h
          | ok flow =>
            rw [hflow] at h
            obtain ⟨hlim, hsame⟩ := RecvFlow.receive_ok hflow
            cases hins : (withFinal old (frame.offset + frame.data.length)
                frame.fin).recvState.insertTracked frame with
            | mk res recvState =>
              rw [hins] at h
              cases res with
              | error e => simp at h
              | ok newly =>
                simp only at h
                cases hch : t₁.charge newly with
                | error e => rw [hch] at h; simp at h
                | ok t₂ =>
                  rw [hch] at h
                  simp only [Prod.mk.injEq, true_and] at h
                  subst h
                  exact ⟨old, flow, newly, recvState, hopened, hhigh, hknown,
                    hlim, hsame, hins, charge_put hopen hch hopened.streamId⟩

/-- **An accepted RESET_STREAM charges what has not arrived below the final size.** -/
theorem receiveResetStream_ok (h : t.receiveResetStream reset = (.ok (), t')) :
    ∃ old flow,
      Opened t reset.streamId old ∧
      old.highestReceivedEnd ≤ reset.finalSize ∧
      (∀ known, old.finalSize = some known → reset.finalSize = known) ∧
      reset.finalSize ≤ old.flow.limit ∧ flow.limit = old.flow.limit ∧
      old.recvState.receivedTotal ≤ reset.finalSize ∧
      t'.findRecvStreamEntry reset.streamId = some (afterReset old reset flow) ∧
      Beside reset.streamId t t' ∧
      t'.recvDataTotal = t.recvDataTotal + (reset.finalSize - old.recvState.receivedTotal) := by
  unfold receiveResetStream at h
  cases hopen : t.recvStreamFlow reset.streamId with
  | mk r t₁ =>
    rw [hopen] at h
    cases r with
    | error e => simp at h
    | ok old =>
      obtain ⟨hopened, -, -, -, -⟩ := recvStreamFlow_ok hopen
      simp only at h
      cases hfinal : applyFinalSize old reset.finalSize true with
      | error e => rw [hfinal] at h; simp at h
      | ok mid =>
        rw [hfinal] at h
        obtain ⟨hmid, hhigh, hknown⟩ := applyFinalSize_ok hfinal
        subst hmid
        simp only at h
        cases hflow : (withFinal old reset.finalSize true).flow.receive reset.finalSize with
        | error e => rw [hflow] at h; simp at h
        | ok flow =>
          rw [hflow] at h
          obtain ⟨hlim, hsame⟩ := RecvFlow.receive_ok hflow
          simp only at h
          have hcount : { withFinal old reset.finalSize true with
              flow := flow }.recvState.receivedByteCount = old.recvState.receivedTotal := rfl
          rw [hcount] at h
          obtain ⟨hshort, h⟩ := of_guard h nofun
          cases hch : t₁.charge (reset.finalSize - old.recvState.receivedTotal) with
          | error e => rw [hch] at h; simp at h
          | ok t₂ =>
            rw [hch] at h
            simp only [Prod.mk.injEq, true_and] at h
            subst h
            exact ⟨old, flow, hopened, hhigh rfl, fun k hk => (hknown k hk).2 rfl, hlim,
              hsame, by omega, charge_put hopen hch hopened.streamId⟩

/-! ### The invariant of an entry -/

/-- The entry agrees with the set `A` of offsets that have arrived on its stream. -/
structure EntryWF (A : Finset Nat) (entry : StreamRecvFlowEntry) : Prop where
  tracks : Tracks A entry.recvState
  sameId : entry.recvState.streamId = entry.streamId
  highLe : entry.recvState.highestReceivedEnd ≤ entry.highestReceivedEnd
  finalKnown : ∀ size, entry.recvState.finalSize = some size → entry.finalSize = some size
  finalAbove : ∀ size, entry.finalSize = some size → entry.highestReceivedEnd ≤ size
  openHigh : entry.finalSize = none → entry.highestReceivedEnd = entry.recvState.highestReceivedEnd
  resetFinal : ∀ r, entry.reset = some r → entry.finalSize = some r.finalSize

lemma Fresh.wf (h : Fresh t id entry) : EntryWF ∅ entry := by
  refine ⟨?_, ?_, ?_, ?_, ?_, ?_, ?_⟩
  · rw [h.recvState]
    exact init_tracks id _
  · rw [h.recvState, h.streamId]
    rfl
  · rw [h.recvState]
    exact Nat.zero_le _
  · simp [h.recvState, RecvState.init]
  · simp [h.final]
  · intro _
    rw [h.high, h.recvState]
    rfl
  · simp [h.reset]

lemma EntryWF.afterStream {A : Finset Nat} {frame : StreamFrame} {newly : Nat}
    {recvState : RecvState} (h : EntryWF A old)
    (hhigh : frame.fin = true → old.highestReceivedEnd ≤ frame.offset + frame.data.length)
    (hknown : ∀ known, old.finalSize = some known → frame.offset + frame.data.length ≤ known ∧
      (frame.fin = true → frame.offset + frame.data.length = known))
    (hins : old.recvState.insertTracked frame = (.ok newly, recvState)) :
    EntryWF (A ∪ span frame) (StreamTable.afterStream old frame flow recvState) := by
  obtain ⟨htracks, -⟩ := insertTracked_tracks h.tracks hins
  obtain ⟨hid, hfinal, hmax⟩ := insertTracked_final h.tracks hins
  have hle := h.highLe
  unfold StreamTable.afterStream withFinal
  refine ⟨htracks, hid.trans h.sameId, ?_, ?_, ?_, ?_, ?_⟩
  · show recvState.highestReceivedEnd ≤ max old.highestReceivedEnd _
    omega
  · intro size hs
    rw [hfinal] at hs
    by_cases hfin : frame.fin = true
    · rw [if_pos hfin] at hs ⊢
      exact hs
    · rw [if_neg hfin] at hs ⊢
      exact h.finalKnown size hs
  · intro size hs
    simp only at hs ⊢
    by_cases hfin : frame.fin = true
    · rw [if_pos hfin, Option.some.injEq] at hs
      have := hhigh hfin
      omega
    rw [if_neg hfin] at hs
    have := h.finalAbove size hs
    have := (hknown size hs).1
    omega
  · intro hnone
    obtain ⟨-, hnone⟩ := of_guard hnone nofun
    rw [hmax, h.openHigh hnone]
  intro r hr
  have hsize := h.resetFinal r hr
  by_cases hfin : frame.fin = true
  · rw [if_pos hfin, (hknown _ hsize).2 hfin]
  · rw [if_neg hfin]
    exact hsize

lemma EntryWF.afterReset {A : Finset Nat} (h : EntryWF A old)
    (hhigh : old.highestReceivedEnd ≤ reset.finalSize)
    (hknown : ∀ known, old.finalSize = some known → reset.finalSize = known) :
    EntryWF A (StreamTable.afterReset old reset flow) := by
  have hle := h.highLe
  unfold StreamTable.afterReset withFinal
  refine ⟨h.tracks, h.sameId, ?_, ?_, ?_, ?_, ?_⟩
  · show old.recvState.highestReceivedEnd ≤ max old.highestReceivedEnd _
    omega
  · intro size hs
    simp [hknown size (h.finalKnown size hs)]
  · intro size hs
    simp only [if_true, Option.some.injEq] at hs ⊢
    omega
  · simp
  · simp

end StreamTable

end Netz.Quic
