/-
What the application's calls do to the stream table.

Reading and releasing move windows, drop bytes that have been read and open streams; they
charge nothing and forget nothing.  `Kept t t'` says so for a whole table, and every call
other than a received packet is an instance.
-/
import Netz.Proofs.Streams

namespace Netz.Quic

open Lib Option

namespace RecvState

lemma consume_keeps {s s' : RecvState} {len : Nat} (hok : s.consume len = (.ok (), s')) :
    s'.streamId = s.streamId ∧ s'.finalSize = s.finalSize ∧
      s'.highestReceivedEnd = s.highestReceivedEnd := by
  unfold consume at hok
  by_cases hzero : len = 0
  · rw [if_pos hzero, Prod.mk.injEq] at hok
    simp [← hok.2]
  rw [if_neg hzero] at hok
  obtain ⟨hshort, hok⟩ := of_guard hok nofun
  rw [Prod.mk.injEq] at hok
  rw [← hok.2]
  rcases compactConsumedPrefix_cases { s with readOffset := s.readOffset + len } with heq | heq
  · simp [heq]
  · simp [heq]

end RecvState

namespace StreamTable

/-- The entries describe the same stream: only windows and read bytes differ. -/
structure SameStream (e e' : StreamRecvFlowEntry) : Prop where
  wf : ∀ A, EntryWF A e → EntryWF A e'
  reset : e'.reset = e.reset
  final : e'.finalSize = e.finalSize
  high : e'.highestReceivedEnd = e.highestReceivedEnd
  limit : e.flow.limit ≤ e'.flow.limit

namespace SameStream

lemma refl (e : StreamRecvFlowEntry) : SameStream e e :=
  ⟨fun _ h => h, rfl, rfl, rfl, le_rfl⟩

lemma trans {e₁ e₂ e₃ : StreamRecvFlowEntry} (h₁ : SameStream e₁ e₂) (h₂ : SameStream e₂ e₃) :
    SameStream e₁ e₃ :=
  ⟨fun A h => h₂.wf A (h₁.wf A h), h₂.reset.trans h₁.reset, h₂.final.trans h₁.final,
    h₂.high.trans h₁.high, Nat.le_trans h₁.limit h₂.limit⟩

lemma flow (e : StreamRecvFlowEntry) {flow : RecvFlow} (h : e.flow.limit ≤ flow.limit) :
    SameStream e { e with flow := flow } :=
  ⟨fun _ hwf => ⟨hwf.tracks, hwf.sameId, hwf.highLe, hwf.finalKnown, hwf.finalAbove, hwf.openHigh,
    hwf.resetFinal⟩, rfl, rfl, rfl, h⟩

lemma consume (e : StreamRecvFlowEntry) {len : Nat} {recvState : RecvState}
    (hok : e.recvState.consume len = (.ok (), recvState)) :
    SameStream e { e with recvState := recvState } := by
  obtain ⟨hid, hfinal, hhigh⟩ := RecvState.consume_keeps hok
  refine ⟨?_, rfl, rfl, rfl, le_rfl⟩
  intro A hwf
  obtain ⟨htracks, -, -, -⟩ := RecvState.consume_ok (S := []) hwf.tracks hok
  exact ⟨htracks, hid.trans hwf.sameId, by rw [hhigh]; exact hwf.highLe,
    by rw [hfinal]; exact hwf.finalKnown, hwf.finalAbove, by rw [hhigh]; exact hwf.openHigh,
    hwf.resetFinal⟩

end SameStream

/-- An entry nothing has arrived on. -/
structure Unused (e : StreamRecvFlowEntry) : Prop where
  wf : EntryWF ∅ e
  reset : e.reset = none
  final : e.finalSize = none

lemma Fresh.unused {t : StreamTable} {id : Nat} {e : StreamRecvFlowEntry} (h : Fresh t id e) :
    Unused e := ⟨h.wf, h.reset, h.final⟩

lemma Unused.same {e e' : StreamRecvFlowEntry} (h : Unused e) (hs : SameStream e e') : Unused e' :=
  ⟨hs.wf ∅ h.wf, hs.reset.trans h.reset, hs.final.trans h.final⟩

/-- Nothing is charged, and every stream is what it was, or new and unused. -/
structure Kept (t t' : StreamTable) : Prop where
  total : t'.recvDataTotal = t.recvDataTotal
  limit : t.recvFlow.limit ≤ t'.recvFlow.limit
  old : ∀ id e, t.findRecvStreamEntry id = some e →
    ∃ e', t'.findRecvStreamEntry id = some e' ∧ SameStream e e'
  new : ∀ id e', t.findRecvStreamEntry id = none → t'.findRecvStreamEntry id = some e' → Unused e'

namespace Kept

lemma refl (t : StreamTable) : Kept t t :=
  ⟨rfl, le_rfl, fun _ e he => ⟨e, he, SameStream.refl e⟩,
    fun id e' hnone he => by rw [hnone] at he; simp at he⟩

lemma trans {t₁ t₂ t₃ : StreamTable} (h₁ : Kept t₁ t₂) (h₂ : Kept t₂ t₃) : Kept t₁ t₃ := by
  refine ⟨h₂.total.trans h₁.total, Nat.le_trans h₁.limit h₂.limit, ?_, ?_⟩
  · intro id e he
    obtain ⟨e₂, he₂, hs₂⟩ := h₁.old id e he
    obtain ⟨e₃, he₃, hs₃⟩ := h₂.old id e₂ he₂
    exact ⟨e₃, he₃, hs₂.trans hs₃⟩
  intro id e' hnone he
  cases hmid : t₂.findRecvStreamEntry id with
  | none => exact h₂.new id e' hmid he
  | some e₂ =>
    obtain ⟨e₃, he₃, hs⟩ := h₂.old id e₂ hmid
    rw [he, some.injEq] at he₃
    rw [he₃]
    exact (h₁.new id e₂ hnone hmid).same hs

lemma of_eq {t t' : StreamTable} (hstreams : t'.recvStreams = t.recvStreams)
    (htotal : t'.recvDataTotal = t.recvDataTotal) (hlim : t.recvFlow.limit ≤ t'.recvFlow.limit) :
    Kept t t' := by
  have hfind : ∀ id, t'.findRecvStreamEntry id = t.findRecvStreamEntry id := by
    simp [hstreams, findRecvStreamEntry]
  refine ⟨htotal, hlim, ?_, ?_⟩
  · intro id e he
    exact ⟨e, by rw [hfind]; exact he, SameStream.refl e⟩
  · intro id e' hnone he
    simp [hfind, hnone] at he

lemma put {t : StreamTable} {e e' : StreamRecvFlowEntry} {id : Nat}
    (hfind : t.findRecvStreamEntry id = some e) (hid : e'.streamId = e.streamId)
    (hs : SameStream e e') : Kept t (t.putRecvStreamEntry e') := by
  have hkey : e'.streamId = id := by rw [hid]; exact streamId_of_find hfind
  subst hkey
  refine ⟨rfl, le_rfl, ?_, ?_⟩
  · intro k old hold
    by_cases hk : k = e'.streamId
    · subst hk
      rw [hfind, some.injEq] at hold
      rw [← hold]
      exact ⟨e', find_put_self hfind, hs⟩
    · exact ⟨old, by rw [find_put_ne t e' k hk]; exact hold, SameStream.refl old⟩
  intro k new hnone hnew
  by_cases hk : k = e'.streamId
  · subst hk
    simp [hfind] at hnone
  · simp [find_put_ne t e' k hk, hnone] at hnew

lemma wf {t t' : StreamTable} (h : Kept t t')
    (hwf : ∀ id e, t.findRecvStreamEntry id = some e → ∃ A, EntryWF A e) :
    ∀ id e, t'.findRecvStreamEntry id = some e → ∃ A, EntryWF A e := by
  intro id e' he'
  cases hold : t.findRecvStreamEntry id with
  | none => exact ⟨∅, (h.new id e' hold he').wf⟩
  | some e =>
    obtain ⟨A, hA⟩ := hwf id e hold
    obtain ⟨e₂, he₂, hs⟩ := h.old id e hold
    rw [he', some.injEq] at he₂
    rw [he₂]
    exact ⟨A, hs.wf A hA⟩

end Kept

lemma recvStreamFlow_kept (t : StreamTable) (id : Nat) : Kept t (t.recvStreamFlow id).2 := by
  cases hopen : t.recvStreamFlow id with
  | mk result t₁ =>
    cases result with
    | error e =>
      rw [recvStreamFlow_error hopen]
      exact Kept.refl t
    | ok entry =>
      obtain ⟨hopened, hfind, hbeside, htotal, hflow⟩ := recvStreamFlow_ok hopen
      refine ⟨htotal, by rw [hflow], ?_, ?_⟩
      · intro k e he
        by_cases hk : k = id
        · subst hk
          rcases hopened with hold | hnew
          · rw [hold, some.injEq] at he
            rw [← he]
            exact ⟨entry, hfind, SameStream.refl entry⟩
          · simp [hnew.1] at he
        · exact ⟨e, by rw [hbeside.others k hk]; exact he, SameStream.refl e⟩
      intro k e' hnone he'
      by_cases hk : k = id
      · subst hk
        rw [hfind, some.injEq] at he'
        rw [← he']
        rcases hopened with hold | hnew
        · simp [hold] at hnone
        · exact hnew.2.unused
      · simp [hbeside.others k hk, hnone] at he'

lemma consumeStreamReceived_kept (t : StreamTable) (id amount : Nat) :
    Kept t (t.consumeStreamReceived id amount).2 := by
  have hopen := recvStreamFlow_kept t id
  unfold consumeStreamReceived
  cases hrun : t.recvStreamFlow id with
  | mk result t₁ =>
    rw [hrun] at hopen
    cases result with
    | error e => exact hopen
    | ok entry =>
      obtain ⟨-, hfind, -, -, -⟩ := recvStreamFlow_ok hrun
      exact hopen.trans (Kept.put hfind rfl
        (SameStream.flow entry (RecvFlow.consume_limit entry.flow amount)))

lemma releaseReceivedCapacity_kept (t : StreamTable) (id amount : Nat) (sent : Bool) :
    Kept t (t.releaseReceivedCapacity id amount sent).2 := by
  unfold releaseReceivedCapacity
  by_cases hzero : amount = 0
  · rw [if_pos hzero]
    exact Kept.refl t
  rw [if_neg hzero]
  cases hfind : t.findRecvStreamEntry id with
  | none => exact Kept.refl t
  | some entry =>
    simp only
    by_cases hshort : entry.recvState.available.length < amount
    · rw [if_pos hshort]
      exact Kept.refl t
    rw [if_neg hshort]
    by_cases hlost : ((t.recvFlow.consume amount).1 ≠ none ∨ (entry.flow.consume amount).1 ≠ none) ∧
        sent = false
    · rw [if_pos hlost]
      exact Kept.refl t
    rw [if_neg hlost]
    cases hread : entry.recvState.consume amount with
    | mk result recvState =>
      cases result with
      | error e => exact Kept.refl t
      | ok u =>
        have hflow : Kept t { t with recvFlow := (t.recvFlow.consume amount).2 } :=
          Kept.of_eq rfl rfl (RecvFlow.consume_limit t.recvFlow amount)
        refine hflow.trans (Kept.put (e := entry) hfind rfl ?_)
        exact (SameStream.flow entry (RecvFlow.consume_limit entry.flow amount)).trans
          (SameStream.consume { entry with flow := (entry.flow.consume amount).2 } hread)

/-- What `releaseCompletedPeerStream` can do: nothing, mark the entry, or mark it and raise the
limit of its direction. -/
theorem releaseCompletedPeerStream_cases (t : StreamTable) (id : Nat) (sent : Bool) :
    (∃ result, result ≠ .ok true ∧ t.releaseCompletedPeerStream id sent = (result, t)) ∨
    streamInitiatedByLocal t.config.localEndpoint id = false ∧
      ∃ entry marked, t.findRecvStreamEntry id = some entry ∧
      entry.streamCountCreditReleased = false ∧
      marked = t.putRecvStreamEntry { entry with streamCountCreditReleased := true } ∧
      (t.recvMaxStreams (streamDirection id) = maxStreamCount ∧
        t.releaseCompletedPeerStream id sent = (.ok false, marked) ∨
      ∃ bidi uni, t.releaseCompletedPeerStream id sent = (.ok true,
          { marked with recvMaxStreamsBidi := bidi, recvMaxStreamsUni := uni }) ∧
        bidi = t.recvMaxStreamsBidi + (if streamDirection id = .bidirectional then 1 else 0) ∧
        uni = t.recvMaxStreamsUni + if streamDirection id = .unidirectional then 1 else 0) := by
  unfold releaseCompletedPeerStream
  by_cases hlocal : streamInitiatedByLocal t.config.localEndpoint id = true
  · exact .inl ⟨_, by simp, if_pos hlocal⟩
  rw [if_neg hlocal]
  cases hfind : t.findRecvStreamEntry id with
  | none => exact .inl ⟨_, by simp, rfl⟩
  | some entry =>
    dsimp only
    by_cases hdone : entry.streamCountCreditReleased = true
    · exact .inl ⟨_, by simp, if_pos hdone⟩
    rw [if_neg hdone]
    by_cases hopen : entry.recvState.complete = false ∧ entry.reset = none
    · exact .inl ⟨_, by simp, if_pos hopen⟩
    rw [if_neg hopen]
    by_cases hsending : streamDirection id = .bidirectional ∧ t.sendHalfOpen id = true
    · exact .inl ⟨_, by simp, if_pos hsending⟩
    rw [if_neg hsending]
    by_cases hfull : t.recvMaxStreams (streamDirection id) = maxStreamCount
    · exact .inr ⟨by simpa using hlocal, entry, _, rfl, by simpa using hdone, rfl,
        .inl ⟨hfull, if_pos hfull⟩⟩
    rw [if_neg hfull]
    by_cases hsent : sent = false
    · exact .inl ⟨_, by simp, if_pos hsent⟩
    rw [if_neg hsent]
    refine .inr ⟨by simpa using hlocal, entry, _, rfl, by simpa using hdone, rfl, .inr ?_⟩
    cases streamDirection id with
    | bidirectional | unidirectional => exact ⟨_, _, rfl, rfl, rfl⟩

lemma releaseCompletedPeerStream_kept (t : StreamTable) (id : Nat) (sent : Bool) :
    Kept t (t.releaseCompletedPeerStream id sent).2 := by
  rcases releaseCompletedPeerStream_cases t id sent with
    ⟨_, -, hrun⟩ | ⟨-, entry, marked, hfind, -, rfl, hrun⟩
  · rw [hrun]
    exact Kept.refl t
  have hput : Kept t (t.putRecvStreamEntry { entry with streamCountCreditReleased := true }) := by
    refine Kept.put hfind rfl ⟨?_, rfl, rfl, rfl, le_rfl⟩
    intro A hwf
    exact ⟨hwf.tracks, hwf.sameId, hwf.highLe, hwf.finalKnown, hwf.finalAbove, hwf.openHigh,
      hwf.resetFinal⟩
  rcases hrun with ⟨-, hrun⟩ | ⟨_, _, hrun, -⟩
  · rw [hrun]
    exact hput
  · rw [hrun]
    exact hput.trans (Kept.of_eq rfl rfl le_rfl)

end StreamTable

end Netz.Quic
