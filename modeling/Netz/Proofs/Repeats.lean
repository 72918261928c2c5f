/-
A frame that was accepted before, checked once more.

The preflight of such a frame cannot run into a flow-control limit, as long as it does not
recharge: its offsets have all arrived, so it asks for no credit, and limits never shrink.
`Unmoved` is what a row of such frames leaves of the preflight: nothing was charged, and the
shadows store what the streams store.
-/
import Netz.Proofs.Charges
import Netz.Proofs.TableShadow

namespace Netz.Quic

open Lib RecvState.Preflight Option Finset

namespace StreamTable

/-- The preflight has charged nothing, and its shadows store what the streams store. -/
structure Unmoved (t : StreamTable) (p : StreamPreflight) : Prop where
  total : p.recvDataTotal = t.recvDataTotal
  shadows : ∀ id shadow, p.find id = some shadow →
    ∃ entry, t.findRecvStreamEntry id = some entry ∧ shadow.flowLimit = entry.flow.limit ∧
      shadow.recvState.received = entry.recvState.received ∧
      shadow.recvState.storageOffset = entry.recvState.storageOffset ∧
      shadow.recvState.receivedTotal = entry.recvState.receivedTotal

/-- What a preflight step may do: fail for another reason, or charge nothing. -/
def StaysUnmoved (t : StreamTable) (result : Except Error StreamPreflight) : Prop :=
  (∀ e, result = .error e → e ≠ .flowControlViolation) ∧ ∀ p, result = .ok p → Unmoved t p

variable {t : StreamTable}

lemma StaysUnmoved.fail {e : Error} (he : e ≠ .flowControlViolation) :
    StaysUnmoved t (.error e) := by
  refine ⟨?_, by simp⟩
  simp [he]

lemma validateStreamReceiveFrameId_error {id : Nat} {e : Error}
    (h : t.validateStreamReceiveFrameId id = .error e) : e ≠ .flowControlViolation := by
  unfold validateStreamReceiveFrameId validatePeerStreamCount at h
  grind

lemma preflightApplyFinalSize_error {shadow : RecvStreamPreflightEntry} {size : Nat} {final : Bool}
    {e : Error} (h : preflightApplyFinalSize shadow size final = .error e) :
    e ≠ .flowControlViolation := by
  unfold preflightApplyFinalSize RecvState.Preflight.applyFinalSize at h
  grind

lemma preflightApplyFinalSize_ok {shadow mid : RecvStreamPreflightEntry} {size : Nat} {final : Bool}
    (h : preflightApplyFinalSize shadow size final = .ok mid) :
    mid.streamId = shadow.streamId ∧ mid.flowLimit = shadow.flowLimit ∧
      mid.recvState.received = shadow.recvState.received ∧
      mid.recvState.storageOffset = shadow.recvState.storageOffset ∧
      mid.recvState.receivedTotal = shadow.recvState.receivedTotal := by
  unfold preflightApplyFinalSize at h
  cases hrun : shadow.recvState.applyFinalSize size final with
  | error e => rw [hrun] at h; simp at h
  | ok state =>
    rw [hrun] at h
    simp only [Except.ok.injEq] at h
    simp [← h, (RecvState.Preflight.applyFinalSize_ok hrun).1]

lemma insertTracked_error {q : RecvState.Preflight} {pending : List StreamFrame}
    {frame : StreamFrame} {e : Error} (h : q.insertTracked pending frame = .error e) :
    e ≠ .flowControlViolation := by
  unfold insertTracked at h
  grind

/-- A frame whose offsets have all arrived brings nothing new. -/
theorem insertTracked_repeated {A : Finset Nat} {s : RecvState} (hw : RecvState.Tracks A s)
    {q q' : RecvState.Preflight} {pending pending' : List StreamFrame} {frame : StreamFrame} {n : Nat}
    (hrecv : q.received = s.received) (hstorage : q.storageOffset = s.storageOffset)
    (htotal : q.receivedTotal = s.receivedTotal) (hspan : RecvState.span frame ⊆ A)
    (hok : q.insertTracked pending frame = .ok (n, q', pending')) :
    n = 0 ∧ q'.received = q.received ∧ q'.storageOffset = q.storageOffset ∧
      q'.receivedTotal = q.receivedTotal := by
  unfold insertTracked at hok
  obtain ⟨-, hok⟩ := of_guard hok nofun
  cases hadd : checkedAdd frame.offset frame.data.length with
  | none => rw [hadd] at hok; simp at hok
  | some stop =>
    rw [hadd] at hok
    obtain ⟨hstop, -⟩ := checkedAdd_eq_some.mp hadd
    subst hstop
    simp only at hok
    obtain ⟨-, hok⟩ := of_guard hok nofun
    by_cases hold : frame.offset + frame.data.length ≤ q.storageOffset
    · rw [if_pos hold] at hok
      obtain ⟨-, hok⟩ := of_guard hok nofun
      simp only [Except.ok.injEq, Prod.mk.injEq] at hok
      obtain ⟨hn, hq, -⟩ := hok
      rw [← hq]
      by_cases hf : frame.fin = true
      · rw [if_pos hf]
        exact ⟨hn.symm, rfl, rfl, rfl⟩
      · rw [if_neg hf]
        exact ⟨hn.symm, rfl, rfl, rfl⟩
    rw [if_neg hold] at hok
    obtain ⟨-, hok⟩ := of_guard hok nofun
    cases hscan : q.scanFrame pending frame
        (frame.offset + frame.data.length - max frame.offset q.storageOffset)
        (max frame.offset q.storageOffset) 0 with
    | none => rw [hscan] at hok; simp at hok
    | some newly =>
      rw [hscan] at hok
      simp only at hok
      obtain ⟨-, hok⟩ := of_guard hok nofun
      simp only [Except.ok.injEq, Prod.mk.injEq] at hok
      obtain ⟨hn, hq, -⟩ := hok
      obtain ⟨-, hcount⟩ := scanFrame_some _ _ _ _ hscan
      -- Every offset of the frame that is still stored carries its bit.
      have hnone : (Ico (max frame.offset q.storageOffset)
          (max frame.offset q.storageOffset
            + (frame.offset + frame.data.length - max frame.offset q.storageOffset))).filter
          (fun i => q.byteAt pending i = none) = ∅ := by
        rw [filter_eq_empty_iff]
        intro i hi hc
        rw [mem_Ico] at hi
        have hin : i ∈ A := hspan (mem_Ico.mpr (by omega))
        have hbit := hw.bits (i - s.storageOffset)
        rw [show s.storageOffset + (i - s.storageOffset) = i by omega] at hbit
        have hset := RecvState.getD_received.mpr (hbit.mpr hin)
        unfold byteAt at hc
        rw [hrecv, hstorage, if_pos hset] at hc
        simp at hc
      have hzero : newly = 0 := by
        rw [hnone] at hcount
        exact hcount
      have hsmall := hw.card_le
      rw [← hq]
      refine ⟨hn.symm.trans hzero, rfl, rfl, ?_⟩
      show saturatingAdd q.receivedTotal newly = q.receivedTotal
      rw [hzero, htotal, hw.total]
      unfold saturatingAdd
      omega

/-- Writing back a shadow that still stores what its stream stores. -/
theorem Unmoved.put {p : StreamPreflight} (h : Unmoved t p) {id : Nat}
    {shadow : RecvStreamPreflightEntry} {entry : StreamRecvFlowEntry} {frames : List StreamFrame}
    (htouched : p.find id ≠ none) (hid : shadow.streamId = id)
    (hfind : t.findRecvStreamEntry id = some entry) (hlim : shadow.flowLimit = entry.flow.limit)
    (hrecv : shadow.recvState.received = entry.recvState.received)
    (hstorage : shadow.recvState.storageOffset = entry.recvState.storageOffset)
    (htotal : shadow.recvState.receivedTotal = entry.recvState.receivedTotal) :
    Unmoved t (StreamPreflight.put { p with streamFrames := frames } shadow) := by
  subst hid
  refine ⟨h.total, ?_⟩
  intro k s hk
  have hrep := find?_replace (fun e : RecvStreamPreflightEntry => e.streamId) p.recvStreams shadow k
  rw [show (StreamPreflight.put { p with streamFrames := frames } shadow).find k = _ from hrep] at hk
  by_cases hks : k = shadow.streamId
  · obtain ⟨old, hold⟩ := ne_none_iff_exists'.mp htouched
    rw [if_pos hks, hks, show p.recvStreams.find? (fun e => e.streamId == shadow.streamId)
      = some old from hold] at hk
    simp only [map_some, some.injEq] at hk
    rw [← hk, hks]
    exact ⟨entry, hfind, hlim, hrecv, hstorage, htotal⟩
  · rw [if_neg hks] at hk
    exact h.shadows k s hk

/-- A stream that is open already gets a shadow that stores what it stores. -/
theorem Unmoved.openStream {p : StreamPreflight} (h : Unmoved t p) {id : Nat}
    {entry : StreamRecvFlowEntry} (hfind : t.findRecvStreamEntry id = some entry) :
    ∃ shadow p₁, t.preflightRecvStreamEntry p id = .ok (shadow, p₁) ∧ Unmoved t p₁ ∧
      p₁.find id = some shadow := by
  unfold preflightRecvStreamEntry
  cases hshadow : p.find id with
  | some shadow =>
    rw [show p.recvStreams.find? (fun e => e.streamId == id) = some shadow from hshadow]
    exact ⟨shadow, p, rfl, h, hshadow⟩
  | none =>
    rw [show p.recvStreams.find? (fun e => e.streamId == id) = none from hshadow, hfind]
    have hlook := find?_append_singleton (fun e : RecvStreamPreflightEntry => e.streamId) p.recvStreams
      ⟨id, entry.flow.limit, RecvState.Preflight.init entry.recvState, entry.highestReceivedEnd,
        entry.finalSize⟩
    refine ⟨_, _, rfl, ⟨h.total, ?_⟩, ?_⟩
    · intro k s hk
      have hk := (hlook k hshadow).symm.trans hk
      by_cases hki : k = id
      · rw [if_pos hki, some.injEq] at hk
        rw [← hk, hki]
        exact ⟨entry, hfind, rfl, rfl, rfl, rfl⟩
      · rw [if_neg hki] at hk
        exact h.shadows k s hk
    · exact (hlook id hshadow).trans (if_pos rfl)

lemma preflightRecvCredit_zero (t : StreamTable) (p : StreamPreflight) :
    t.preflightRecvCredit p 0 = .ok p := by simp [preflightRecvCredit]

section Repeats

variable {t : StreamTable} {p : StreamPreflight} {log : List DataFrame}

lemma stream_unmoved (h : Accounts log t) (hp : Unmoved t p) {frame : StreamFrame}
    (hlogged : DataFrame.stream frame ∈ log) (hclean : RecvState.span frame ⊆ arrived log frame.streamId) :
    StaysUnmoved t (t.validateStreamFramePrecondition p frame) := by
  obtain ⟨entry, hfind, -, -, hlim⟩ := h.seen _ hlogged
  replace hfind : t.findRecvStreamEntry frame.streamId = some entry := hfind
  replace hlim : frame.offset + frame.data.length ≤ entry.flow.limit := hlim
  obtain ⟨hwf, -⟩ := h.entries _ entry hfind
  obtain ⟨shadow, p₁, hopen, hp₁, hfind₁⟩ := hp.openStream hfind
  obtain ⟨entry', hfind', hflow, hrecv, hstorage, htotal⟩ := hp₁.shadows _ _ hfind₁
  rw [hfind, some.injEq] at hfind'
  subst hfind'
  have hsid : shadow.streamId = frame.streamId :=
    key_of_find? (fun e : RecvStreamPreflightEntry => e.streamId) hfind₁
  unfold validateStreamFramePrecondition
  cases hid : t.validateStreamReceiveFrameId frame.streamId with
  | error e => exact StaysUnmoved.fail (validateStreamReceiveFrameId_error hid)
  | ok u =>
    simp only [bind, Except.bind]
    rw [hopen]
    cases hadd : checkedAdd frame.offset frame.data.length with
    | none => exact StaysUnmoved.fail (by simp)
    | some stop =>
      obtain ⟨hstop, -⟩ := checkedAdd_eq_some.mp hadd
      subst hstop
      simp only
      cases hfinal : preflightApplyFinalSize shadow (frame.offset + frame.data.length) frame.fin with
      | error e => exact StaysUnmoved.fail (preflightApplyFinalSize_error hfinal)
      | ok mid =>
        obtain ⟨hmId, hmFlow, hmReceived, hmStorage, hmTotal⟩ := preflightApplyFinalSize_ok hfinal
        simp only
        rw [if_neg (by rw [hmFlow]; omega)]
        cases hins : mid.recvState.insertTracked p₁.streamFrames frame with
        | error e => exact StaysUnmoved.fail (insertTracked_error hins)
        | ok triple =>
          obtain ⟨hn, h₁, h₂, h₃⟩ := insertTracked_repeated hwf.tracks
            (hmReceived.trans hrecv) (hmStorage.trans hstorage) (hmTotal.trans htotal)
            hclean hins
          simp only
          rw [hn, preflightRecvCredit_zero]
          refine ⟨by simp, ?_⟩
          intro p' hp'
          simp only [Except.ok.injEq] at hp'
          rw [← hp']
          exact hp₁.put (by rw [hfind₁]; simp) (hmId.trans hsid) hfind (hmFlow.trans hflow)
            (h₁.trans (hmReceived.trans hrecv)) (h₂.trans (hmStorage.trans hstorage))
            (h₃.trans (hmTotal.trans htotal))

lemma reset_unmoved (h : Accounts log t) (hp : Unmoved t p) {reset : ResetStreamFrame}
    (hlogged : DataFrame.reset reset ∈ log)
    (hclean : reset.finalSize ≤ (arrived log reset.streamId).card) :
    StaysUnmoved t (t.validateResetStreamPrecondition p reset) := by
  obtain ⟨entry, hfind, -, hlim⟩ := h.seen _ hlogged
  replace hfind : t.findRecvStreamEntry reset.streamId = some entry := hfind
  replace hlim : reset.finalSize ≤ entry.flow.limit := hlim
  obtain ⟨hwf, -⟩ := h.entries _ entry hfind
  obtain ⟨shadow, p₁, hopen, hp₁, hfind₁⟩ := hp.openStream hfind
  obtain ⟨entry', hfind', hflow, hrecv, hstorage, htotal⟩ := hp₁.shadows _ _ hfind₁
  rw [hfind, some.injEq] at hfind'
  subst hfind'
  have hsid : shadow.streamId = reset.streamId :=
    key_of_find? (fun e : RecvStreamPreflightEntry => e.streamId) hfind₁
  unfold validateResetStreamPrecondition
  cases hid : t.validateStreamReceiveFrameId reset.streamId with
  | error e => exact StaysUnmoved.fail (validateStreamReceiveFrameId_error hid)
  | ok u =>
    simp only [bind, Except.bind]
    rw [hopen]
    simp only
    cases hfinal : preflightApplyFinalSize shadow reset.finalSize true with
    | error e => exact StaysUnmoved.fail (preflightApplyFinalSize_error hfinal)
    | ok mid =>
      obtain ⟨hmId, hmFlow, hmReceived, hmStorage, hmTotal⟩ := preflightApplyFinalSize_ok hfinal
      have hsize : reset.finalSize - mid.recvState.receivedTotal = 0 := by
        rw [hmTotal, htotal, hwf.tracks.total]
        exact Nat.sub_eq_zero_of_le hclean
      simp only
      rw [if_neg (by rw [hmFlow]; omega)]
      by_cases hshort : reset.finalSize < mid.recvState.receivedTotal
      · rw [if_pos hshort]
        exact StaysUnmoved.fail (by simp)
      rw [if_neg hshort, hsize, preflightRecvCredit_zero]
      refine ⟨by simp, ?_⟩
      intro p' hp'
      simp only [Except.ok.injEq] at hp'
      rw [← hp']
      exact hp₁.put (by rw [hfind₁]; simp) (hmId.trans hsid) hfind (hmFlow.trans hflow)
        (hmReceived.trans hrecv) (hmStorage.trans hstorage) (hmTotal.trans htotal)

end Repeats

end StreamTable

end Netz.Quic
