/-
The preflight of a packet shadows the stream table.

`TableShadow t₀ t p` says that `t` is what the table `t₀` has become after the frames that
the preflight `p` has accepted.  The preflight looks at `t₀` throughout.  What it overlooks
is a final size that an earlier packet's RESET_STREAM left in the entry of a stream:
`AgreesHidden` is the condition that a frame does not contradict it.  Under that condition
every frame the preflight accepts is applied, and the shadow is kept.
-/
import Netz.Proofs.Preflight

namespace Netz.Quic

open Lib Option RecvState

namespace StreamTable

/-! ### The shadow of the table -/

/-- A final size that only the entry knows.  The preflight does not look at it. -/
def hiddenFinalSize (t : StreamTable) (id : Nat) : Option Nat :=
  match t.findRecvStreamEntry id with
  | some entry => if entry.recvState.finalSize = none then entry.finalSize else none
  | none => none

/-- A frame that ends at `size` does not contradict the final size the preflight overlooks. -/
def AgreesHidden (t : StreamTable) (id size : Nat) (final : Bool) : Prop :=
  ∀ known, t.hiddenFinalSize id = some known → size ≤ known ∧ (final = true → size = known)

/-- The entry of a stream that has one is well formed. -/
def TableWF (t : StreamTable) : Prop :=
  ∀ id entry, t.findRecvStreamEntry id = some entry → ∃ A, EntryWF A entry

def StreamPreflight.find (p : StreamPreflight) (id : Nat) : Option RecvStreamPreflightEntry :=
  p.recvStreams.find? (fun e => e.streamId == id)

/-- The preflight entry stands for the entry the earlier frames of the packet leave. -/
structure EntryShadow (t₀ : StreamTable) (pending : List StreamFrame)
    (shadow : RecvStreamPreflightEntry) (entry : StreamRecvFlowEntry) : Prop where
  limit : shadow.flowLimit = entry.flow.limit
  state : Shadow shadow.recvState pending entry.recvState
  final : shadow.recvState.finalSize = entry.finalSize ∨
    (shadow.recvState.finalSize = none ∧ entry.finalSize ≠ none ∧
      t₀.hiddenFinalSize entry.streamId = entry.finalSize)
  hidden : ∀ known, t₀.hiddenFinalSize entry.streamId = some known → entry.finalSize = some known

/-- `t` is what `t₀` became under the frames of the packet that `p` has accepted so far. -/
structure TableShadow (t₀ t : StreamTable) (p : StreamPreflight) : Prop where
  wf : TableWF t
  config : t.config = t₀.config
  maxBidi : t.recvMaxStreamsBidi = t₀.recvMaxStreamsBidi
  maxUni : t.recvMaxStreamsUni = t₀.recvMaxStreamsUni
  limit : t.recvFlow.limit = t₀.recvFlow.limit
  sends : ∀ id, t₀.findSendStreamEntry id ≠ none → t.findSendStreamEntry id ≠ none
  total : p.recvDataTotal = t.recvDataTotal
  pending : ∀ frame ∈ p.streamFrames, p.find frame.streamId ≠ none
  untouched : ∀ id, p.find id = none → t.findRecvStreamEntry id = t₀.findRecvStreamEntry id
  touched : ∀ id shadow, p.find id = some shadow →
    ∃ entry, t.findRecvStreamEntry id = some entry ∧ EntryShadow t₀ p.streamFrames shadow entry

lemma TableShadow.start {t : StreamTable} (hwf : TableWF t) :
    TableShadow t t { recvDataTotal := t.recvDataTotal } :=
  ⟨hwf, rfl, rfl, rfl, rfl, fun _ h => h, rfl, by simp, fun _ _ => rfl,
    by intro id shadow h; simp [StreamPreflight.find] at h⟩

/-! ### Opening a stream on both sides -/

lemma EntryShadow.ofExisting {t₀ : StreamTable} {id : Nat} {entry : StreamRecvFlowEntry}
    {A : Finset Nat} {pending : List StreamFrame} {shadow : RecvStreamPreflightEntry}
    (hfind : t₀.findRecvStreamEntry id = some entry) (hwf : EntryWF A entry)
    (hpend : ∀ frame ∈ pending, frame.streamId ≠ id) (hlim : shadow.flowLimit = entry.flow.limit)
    (hstate : shadow.recvState = Preflight.init entry.recvState) :
    EntryShadow t₀ pending shadow entry := by
  have hid := streamId_of_find hfind
  refine ⟨hlim, ?_, ?_, ?_⟩
  · rw [hstate]
    apply Shadow.init
    rw [hwf.sameId, hid]
    exact hpend
  · rw [hstate]
    show entry.recvState.finalSize = entry.finalSize ∨ (entry.recvState.finalSize = none ∧ _)
    cases hstored : entry.recvState.finalSize with
    | some size => exact .inl (hwf.finalKnown size hstored).symm
    | none =>
      cases hfinal : entry.finalSize with
      | none => exact .inl rfl
      | some size => simp [hid, hfind, hstored, hfinal, hiddenFinalSize]
  · simp [hid, hfind, hiddenFinalSize]

lemma EntryShadow.ofFresh {t₀ t : StreamTable} {id : Nat} {entry : StreamRecvFlowEntry}
    {pending : List StreamFrame} {shadow : RecvStreamPreflightEntry}
    (hconfig : t.config = t₀.config) (hfresh : Fresh t id entry)
    (hnone : t₀.findRecvStreamEntry id = none) (hpend : ∀ frame ∈ pending, frame.streamId ≠ id)
    (hlim : shadow.flowLimit = t₀.initialReceiveStreamDataLimit id)
    (hstate : shadow.recvState = Preflight.initEmpty id (t₀.maxBuffered id)) :
    EntryShadow t₀ pending shadow entry := by
  have hinit : t.initialReceiveStreamDataLimit id = t₀.initialReceiveStreamDataLimit id := by
    unfold initialReceiveStreamDataLimit
    rw [hconfig]
  have hmax : t.maxBuffered id = t₀.maxBuffered id := by
    unfold maxBuffered
    rw [hinit, hconfig]
  refine ⟨?_, ?_, .inl ?_, ?_⟩
  · rw [hlim, hfresh.limit, hinit]
  · rw [hstate, hfresh.recvState, hmax]
    exact RecvState.Shadow.init (s := RecvState.init id (t₀.maxBuffered id)) hpend
  · rw [hstate, hfresh.final]
    rfl
  · simp [hfresh.streamId, hnone, hiddenFinalSize]

lemma validatePeerStreamCount_congr {t₀ t : StreamTable} (hconfig : t.config = t₀.config)
    (hbidi : t.recvMaxStreamsBidi = t₀.recvMaxStreamsBidi)
    (huni : t.recvMaxStreamsUni = t₀.recvMaxStreamsUni) (id : Nat) :
    t.validatePeerStreamCount id = t₀.validatePeerStreamCount id := by
  unfold validatePeerStreamCount
  rw [hconfig, hbidi, huni]

namespace TableShadow

variable {t₀ t : StreamTable} {p : StreamPreflight} {id : Nat}

lemma receiveFrameId (h : TableShadow t₀ t p)
    (hok : t₀.validateStreamReceiveFrameId id = .ok ()) :
    t.validateStreamReceiveFrameId id = .ok () := by
  unfold validateStreamReceiveFrameId at hok ⊢
  rw [h.config, validatePeerStreamCount_congr h.config h.maxBidi h.maxUni]
  by_cases hside : streamHasReceiveSide t₀.config.localEndpoint id = false
  · rw [if_pos hside] at hok; simp at hok
  rw [if_neg hside] at hok ⊢
  by_cases hlocal : streamInitiatedByLocal t₀.config.localEndpoint id = true
  · rw [if_pos hlocal] at hok ⊢
    obtain ⟨hnone, hok⟩ := of_guard hok nofun
    rw [if_neg (h.sends id hnone)]
  · rw [if_neg hlocal] at hok ⊢
    exact hok

lemma validateStreamReceiveFrameId_count {t : StreamTable}
    (hok : t.validateStreamReceiveFrameId id = .ok ()) : t.validatePeerStreamCount id = .ok () := by
  unfold validateStreamReceiveFrameId at hok
  obtain ⟨-, hok⟩ := of_guard hok nofun
  by_cases hlocal : streamInitiatedByLocal t.config.localEndpoint id = true
  · simp [hlocal, validatePeerStreamCount]
  · rw [if_neg hlocal] at hok
    exact hok

variable {shadow : RecvStreamPreflightEntry} {entry : StreamRecvFlowEntry}

/-- The table and the shadow of one stream change together. -/
theorem change (h : TableShadow t₀ t p) {p' : StreamPreflight} {t' : StreamTable}
    (hlook : ∀ k, p'.find k = if k = shadow.streamId then some shadow else p.find k)
    (hbeside : Beside shadow.streamId t t') (htotal : p'.recvDataTotal = t'.recvDataTotal)
    (hframes : p'.streamFrames = p.streamFrames ∨ ∃ frame, frame.streamId = shadow.streamId ∧
      p'.streamFrames = p.streamFrames ++ [frame])
    (hfind : t'.findRecvStreamEntry shadow.streamId = some entry) (hwf : ∃ A, EntryWF A entry)
    (hshadow : EntryShadow t₀ p'.streamFrames shadow entry) : TableShadow t₀ t' p' := by
  refine ⟨?_, hbeside.config.trans h.config, hbeside.recvMaxBidi.trans h.maxBidi,
    hbeside.recvMaxUni.trans h.maxUni, hbeside.limit.trans h.limit, ?_, htotal, ?_, ?_, ?_⟩
  · intro k e he
    by_cases hk : k = shadow.streamId
    · rw [hk, hfind, some.injEq] at he
      rw [← he]
      exact hwf
    · rw [hbeside.others k hk] at he
      exact h.wf k e he
  · intro k hk
    unfold findSendStreamEntry
    rw [hbeside.sendStreams]
    exact h.sends k hk
  · intro frame hframe
    rw [hlook]
    by_cases hk : frame.streamId = shadow.streamId
    · rw [if_pos hk]; simp
    rw [if_neg hk]
    refine h.pending frame ?_
    rcases hframes with hsame | ⟨new, hnew, happ⟩
    · rwa [hsame] at hframe
    rw [happ, List.mem_append, List.mem_singleton] at hframe
    rcases hframe with hin | hin
    · exact hin
    · rw [hin] at hk
      exact absurd hnew hk
  · intro k hk
    rw [hlook] at hk
    obtain ⟨hks, hk⟩ := of_guard hk nofun
    rw [hbeside.others k hks]
    exact h.untouched k hk
  intro k s hk
  rw [hlook] at hk
  by_cases hks : k = shadow.streamId
  · rw [if_pos hks, some.injEq] at hk
    subst hks hk
    exact ⟨entry, hfind, hshadow⟩
  rw [if_neg hks] at hk
  rw [hbeside.others k hks]
  obtain ⟨e, he, hes⟩ := h.touched k s hk
  refine ⟨e, he, hes.limit, ?_, hes.final, hes.hidden⟩
  rcases hframes with hsame | ⟨new, hnew, happ⟩
  · rw [hsame]
    exact hes.state
  rw [happ]
  refine hes.state.append_ne ?_
  obtain ⟨A, hwfe⟩ := h.wf k e he
  rw [hes.state.streamId, hwfe.sameId, streamId_of_find he, hnew]
  exact Ne.symm hks

/-- An entry that only the shadow has added: the stream is now touched. -/
theorem addShadow (h : TableShadow t₀ t p) {t₁ : StreamTable} (hnone : p.find id = none)
    (hid : shadow.streamId = id) (hbeside : Beside id t t₁)
    (htotal : t₁.recvDataTotal = t.recvDataTotal)
    (hfind : t₁.findRecvStreamEntry id = some entry) (hwf : ∃ A, EntryWF A entry)
    (hshadow : EntryShadow t₀ p.streamFrames shadow entry) :
    TableShadow t₀ t₁ { p with recvStreams := p.recvStreams ++ [shadow] } ∧
    StreamPreflight.find { p with recvStreams := p.recvStreams ++ [shadow] } id = some shadow := by
  subst hid
  have hlook := fun k => find?_append_singleton (fun e : RecvStreamPreflightEntry => e.streamId)
    p.recvStreams shadow k hnone
  refine ⟨h.change hlook hbeside (h.total.trans htotal.symm) (.inl rfl) hfind hwf hshadow, ?_⟩
  exact (hlook _).trans (if_pos rfl)

/-- **Where the preflight finds or makes a shadow, the stream is found or opened.** -/
theorem openStream (h : TableShadow t₀ t p)
    {p₁ : StreamPreflight} (hid : t₀.validateStreamReceiveFrameId id = .ok ())
    (hok : t₀.preflightRecvStreamEntry p id = .ok (shadow, p₁)) :
    t.recvStreamFlow id = (.error .invalidWindow, t) ∨
    ∃ entry t₁, t.recvStreamFlow id = (.ok entry, t₁) ∧ TableShadow t₀ t₁ p₁ ∧
      p₁.find id = some shadow := by
  unfold preflightRecvStreamEntry at hok
  cases hfind : p.find id with
  | some known =>
    rw [show p.recvStreams.find? (fun e => e.streamId == id) = some known from hfind] at hok
    simp only [Except.ok.injEq, Prod.mk.injEq] at hok
    obtain ⟨h₁, h₂⟩ := hok
    subst h₁ h₂
    obtain ⟨entry, hent, -⟩ := h.touched id _ hfind
    refine .inr ⟨entry, t, ?_, h, hfind⟩
    unfold recvStreamFlow
    rw [hent]
  | none =>
    rw [show p.recvStreams.find? (fun e => e.streamId == id) = none from hfind] at hok
    have hsame := h.untouched id hfind
    have hpend : ∀ frame ∈ p.streamFrames, frame.streamId ≠ id := by
      intro frame hframe hc
      have := h.pending frame hframe
      rw [hc] at this
      exact this hfind
    cases hold : t₀.findRecvStreamEntry id with
    | some existing =>
      rw [hold] at hok hsame
      simp only [Except.ok.injEq, Prod.mk.injEq] at hok
      obtain ⟨h₁, h₂⟩ := hok
      obtain ⟨A, hwf⟩ := h.wf id existing hsame
      have hshadow : EntryShadow t₀ p.streamFrames shadow existing :=
        EntryShadow.ofExisting hold hwf hpend (by rw [← h₁]) (by rw [← h₁])
      have hadd := h.addShadow hfind (by rw [← h₁]) (Beside.refl id t) rfl hsame ⟨A, hwf⟩ hshadow
      rw [h₁] at h₂
      rw [h₂] at hadd
      refine .inr ⟨existing, t, ?_, hadd⟩
      unfold recvStreamFlow
      rw [hsame]
    | none =>
      rw [hold] at hok hsame
      rw [validateStreamReceiveFrameId_count hid] at hok
      simp only [Except.ok.injEq, Prod.mk.injEq] at hok
      obtain ⟨h₁, h₂⟩ := hok
      cases hopen : t.recvStreamFlow id with
      | mk result t₁ =>
        cases result with
        | ok entry =>
          obtain ⟨hopened, hfind₁, hbeside, htotal, -⟩ := recvStreamFlow_ok hopen
          have hfresh : Fresh t id entry := by
            rcases hopened with hc | hnew
            · rw [hsame] at hc; simp at hc
            · exact hnew.2
          have hshadow : EntryShadow t₀ p.streamFrames shadow entry :=
            EntryShadow.ofFresh h.config hfresh hold hpend (by rw [← h₁]) (by rw [← h₁])
          have hadd := h.addShadow hfind (by rw [← h₁]) hbeside htotal hfind₁
            ⟨∅, hfresh.wf⟩ hshadow
          rw [h₁] at h₂
          rw [h₂] at hadd
          exact .inr ⟨entry, t₁, rfl, hadd⟩
        | error e =>
          refine .inl ?_
          rw [recvStreamFlow_error hopen]
          unfold recvStreamFlow at hopen
          rw [hsame, h.receiveFrameId hid] at hopen
          rw [validatePeerStreamCount_congr h.config h.maxBidi h.maxUni,
            validateStreamReceiveFrameId_count hid] at hopen
          cases hw : RecvFlow.initWithMaxWindow (t.initialReceiveStreamDataLimit id)
              t.config.streamReceiveWindow
              (t.config.maxStreamReceiveWindow.getD t.config.streamReceiveWindow) with
          | ok flow => rw [hw] at hopen; simp at hopen
          | error e' =>
            rw [hw] at hopen
            simp only [Prod.mk.injEq] at hopen
            rw [← hopen.1, RecvFlow.initWithMaxWindow_error hw]

lemma opened (h : TableShadow t₀ t p) {t₁ : StreamTable}
    (hopen : t₁.recvStreamFlow id = (.ok entry, t)) (hfind : p.find id = some shadow) :
    t.findRecvStreamEntry id = some entry ∧ entry.streamId = id ∧
      EntryShadow t₀ p.streamFrames shadow entry ∧ ∃ A, EntryWF A entry := by
  obtain ⟨-, hfindT, -, -, -⟩ := recvStreamFlow_ok hopen
  obtain ⟨entry', hfind', hs⟩ := h.touched _ _ hfind
  rw [hfindT, some.injEq] at hfind'
  subst hfind'
  exact ⟨hfindT, streamId_of_find hfindT, hs, h.wf _ _ hfindT⟩

lemma update (h : TableShadow t₀ t p) {id total : Nat}
    {t' : StreamTable} {frames : List StreamFrame}
    (htouched : p.find id ≠ none) (hid : shadow.streamId = id) (hbeside : Beside id t t')
    (htotal : total = t'.recvDataTotal) (hframes : frames = p.streamFrames ∨
      ∃ frame, frame.streamId = id ∧ frames = p.streamFrames ++ [frame])
    (hfind : t'.findRecvStreamEntry id = some entry) (hwf : ∃ A, EntryWF A entry)
    (hshadow : EntryShadow t₀ frames shadow entry) :
    TableShadow t₀ t'
      (StreamPreflight.put { p with streamFrames := frames, recvDataTotal := total } shadow) := by
  subst hid
  have hlook : ∀ k, (StreamPreflight.put { p with streamFrames := frames, recvDataTotal := total }
      shadow).find k = if k = shadow.streamId then some shadow else p.find k := by
    intro k
    have hrep := find?_replace (fun e : RecvStreamPreflightEntry => e.streamId) p.recvStreams shadow k
    show (p.recvStreams.map _).find? _ = _
    rw [hrep]
    by_cases hk : k = shadow.streamId
    · obtain ⟨old, hold⟩ := ne_none_iff_exists'.mp htouched
      rw [if_pos hk, if_pos hk, hk, show p.recvStreams.find?
        (fun e => e.streamId == shadow.streamId) = some old from hold]
      rfl
    · rw [if_neg hk, if_neg hk]
      rfl
  exact h.change hlook hbeside htotal hframes hfind hwf hshadow

variable {p' : StreamPreflight}

lemma credit (h : TableShadow t₀ t p) {frames : List StreamFrame} {n : Nat}
    (hok : t₀.preflightRecvCredit { p with streamFrames := frames } n = .ok p') :
    ∃ t', t.charge n = .ok t' ∧
      p' = { p with streamFrames := frames, recvDataTotal := t'.recvDataTotal } := by
  unfold preflightRecvCredit at hok
  unfold charge
  by_cases hzero : n = 0
  · rw [if_pos hzero, Except.ok.injEq] at hok
    simp [hzero, ← hok, ← h.total]
  rw [if_neg hzero] at hok ⊢
  rw [← h.total]
  cases hadd : checkedAdd p.recvDataTotal n with
  | none => rw [hadd] at hok; simp at hok
  | some next =>
    rw [hadd] at hok
    simp only at hok ⊢
    obtain ⟨hbig, hok⟩ := of_guard hok nofun
    rw [Except.ok.injEq] at hok
    obtain ⟨flow, hflow⟩ := RecvFlow.receive_of_le
      (show next ≤ t.recvFlow.limit by rw [h.limit]; omega)
    rw [hflow]
    exact ⟨_, rfl, hok.symm⟩

/--
Both sides check a final size.  The shadow may know less than the entry, and then what the
entry knows is the final size that was hidden before the packet.
-/
theorem finalSize {A : Finset Nat} {pending : List StreamFrame} {shadow mid : RecvStreamPreflightEntry}
    {size : Nat} {final : Bool} (hwf : EntryWF A entry) (hs : EntryShadow t₀ pending shadow entry)
    (hagree : t₀.AgreesHidden entry.streamId size final)
    (hok : preflightApplyFinalSize shadow size final = .ok mid) :
    mid.streamId = shadow.streamId ∧
    mid.flowLimit = entry.flow.limit ∧
    Shadow mid.recvState pending entry.recvState ∧
    (mid.recvState.finalSize = (withFinal entry size final).finalSize ∨
      (mid.recvState.finalSize = none ∧ (withFinal entry size final).finalSize ≠ none ∧
        t₀.hiddenFinalSize entry.streamId = (withFinal entry size final).finalSize)) ∧
    (final = true → entry.highestReceivedEnd ≤ size) ∧
    (∀ known, entry.finalSize = some known → size ≤ known ∧ (final = true → size = known)) := by
  unfold preflightApplyFinalSize at hok
  cases hrun : shadow.recvState.applyFinalSize size final with
  | error e => rw [hrun] at hok; simp at hok
  | ok state =>
    rw [hrun] at hok
    simp only [Except.ok.injEq] at hok
    obtain ⟨hstate, hhigh, hknown⟩ := Preflight.applyFinalSize_ok hrun
    have hsize : ∀ known, entry.finalSize = some known →
        size ≤ known ∧ (final = true → size = known) := by
      intro known hk
      rcases hs.final with hsame | ⟨-, -, hhidden⟩
      · exact hknown known (hsame.trans hk)
      · exact hagree known (hhidden.trans hk)
    have hend : final = true → entry.highestReceivedEnd ≤ size := by
      intro hf
      cases hfin : entry.finalSize with
      | none =>
        rw [hwf.openHigh hfin, ← hs.state.high]
        exact hhigh hf
      | some known =>
        rw [(hsize known hfin).2 hf]
        exact hwf.finalAbove known hfin
    refine ⟨by rw [← hok], by rw [← hok]; exact hs.limit, ?_, ?_, hend, hsize⟩
    · rw [← hok, hstate]
      exact hs.state.withFinal _
    rw [← hok, hstate]
    unfold withFinal
    by_cases hf : final = true
    · simp [hf]
    · rw [if_neg hf, if_neg hf]
      exact hs.final

/-- What is known stays known. -/
theorem withFinal_hidden {size : Nat} {final : Bool}
    (hhidden : ∀ known, t₀.hiddenFinalSize entry.streamId = some known → entry.finalSize = some known)
    (hknown : ∀ known, entry.finalSize = some known → final = true → size = known) (known : Nat)
    (h : t₀.hiddenFinalSize entry.streamId = some known) :
    (withFinal entry size final).finalSize = some known := by
  have hold := hhidden known h
  unfold withFinal
  by_cases hf : final = true
  · rw [if_pos hf, hknown known hold hf]
  · simp [hf, hold]

/-- A final size that contradicts the hidden one is refused when the frame is applied. -/
theorem disagree {pending : List StreamFrame} {size : Nat} {final : Bool}
    (hs : EntryShadow t₀ pending shadow entry)
    (hdisagree : ¬ t₀.AgreesHidden entry.streamId size final) :
    ∃ e, applyFinalSize entry size final = .error e := by
  cases hrun : applyFinalSize entry size final with
  | error e => exact ⟨e, rfl⟩
  | ok mid =>
    exfalso
    apply hdisagree
    intro known hknown
    exact (applyFinalSize_ok hrun).2.2 known (hs.hidden known hknown)

/-- **A STREAM frame that passes the preflight, and agrees with the hidden final size, applies.** -/
theorem receiveStream (h : TableShadow t₀ t p) {frame : StreamFrame}
    (hagree : t₀.AgreesHidden frame.streamId (frame.offset + frame.data.length) frame.fin)
    (hok : t₀.validateStreamFramePrecondition p frame = .ok p') :
    t.receiveStream frame = (.error .invalidWindow, t) ∨
    ∃ t', t.receiveStream frame = (.ok (), t') ∧ TableShadow t₀ t' p' := by
  unfold validateStreamFramePrecondition at hok
  obtain ⟨u, hid, hok⟩ := bind_eq_ok hok
  obtain ⟨⟨shadow, p₁⟩, hent, hok⟩ := bind_eq_ok hok
  rcases h.openStream hid hent with hbad | ⟨entry, t₁, hopen, h₁, hfind₁⟩
  · simp [hbad, StreamTable.receiveStream]
  right
  obtain ⟨hfindT, hsid, hs, A, hwf⟩ := h₁.opened hopen hfind₁
  cases hadd : checkedAdd frame.offset frame.data.length with
  | none => rw [hadd] at hok; simp at hok
  | some stop =>
    obtain ⟨hstop, hfits⟩ := checkedAdd_eq_some.mp hadd
    rw [hadd] at hok
    subst hstop
    obtain ⟨mid, hmid, hok⟩ := bind_eq_ok hok
    rw [← hsid] at hagree
    obtain ⟨hmidId, hlim, hstate, hfinal, hhigh, hknown⟩ := finalSize hwf hs hagree hmid
    obtain ⟨hbig, hok⟩ := of_guard hok nofun
    obtain ⟨⟨newly, state', frames'⟩, hins, hok⟩ := bind_eq_ok hok
    obtain ⟨p₂, hcred, hok⟩ := bind_eq_ok hok
    rw [Except.ok.injEq] at hok
    have hexceeds : exceedsFinalSize entry.recvState.finalSize
        (frame.offset + frame.data.length) frame.fin = false := by
      unfold exceedsFinalSize
      cases hstored : entry.recvState.finalSize with
      | none => rfl
      | some size =>
        obtain ⟨hle, heq⟩ := hknown size (hwf.finalKnown size hstored)
        simp only [Bool.or_eq_false_iff, decide_eq_false_iff_not, Bool.and_eq_false_iff, not_lt]
        refine ⟨hle, ?_⟩
        cases hf : frame.fin with
        | false => exact .inl rfl
        | true => exact .inr (not_not.mpr (heq hf))
    obtain ⟨-, hpend, hfin', s', hinsert, hstate'⟩ := hstate.insertTracked hwf.tracks hexceeds hins
    obtain ⟨t₂, hcharge, hp₂⟩ := h₁.credit hcred
    obtain ⟨flow, hflow⟩ := RecvFlow.receive_of_le
      (show frame.offset + frame.data.length ≤ entry.flow.limit by rw [← hlim]; omega)
    have hflowLimit := (RecvFlow.receive_ok hflow).2
    have hrun : t.receiveStream frame
        = (.ok (), t₂.putRecvStreamEntry (afterStream entry frame flow s')) := by
      unfold StreamTable.receiveStream
      rw [hopen, hadd]
      simp only
      rw [applyFinalSize_of_agree hhigh hknown]
      simp only
      rw [show (withFinal entry (frame.offset + frame.data.length) frame.fin).flow = entry.flow
        from rfl, hflow]
      rw [show (withFinal entry (frame.offset + frame.data.length) frame.fin).recvState
        = entry.recvState from rfl, hinsert]
      simp only
      rw [hcharge]
      rfl
    refine ⟨_, hrun, ?_⟩
    obtain ⟨hfindP, hbeside⟩ :=
      find_charge_put hfindT hcharge (show (afterStream entry frame flow s').streamId = _ from hsid)
    rw [← hok, hp₂]
    refine h₁.update (by rw [hfind₁]; simp) ?_ hbeside rfl ?_ hfindP
      ⟨_, hwf.afterStream hhigh hknown hinsert⟩
      ⟨?_, hstate', ?_, withFinal_hidden hs.hidden (fun k hk => (hknown k hk).2)⟩
    · show mid.streamId = _
      rw [hmidId]
      exact key_of_find? (fun e : RecvStreamPreflightEntry => e.streamId) hfind₁
    · rcases hpend with hsame | happ
      · exact .inl hsame
      · exact .inr ⟨frame, rfl, happ⟩
    · show mid.flowLimit = flow.limit
      rw [hlim, hflowLimit]
    show state'.finalSize = (withFinal entry _ frame.fin).finalSize ∨ _
    rw [hfin']
    by_cases hf : frame.fin = true
    · simp [hf, withFinal]
    · rw [if_neg hf]
      exact hfinal

lemma receiveResetStream (h : TableShadow t₀ t p) {reset : ResetStreamFrame}
    (hagree : t₀.AgreesHidden reset.streamId reset.finalSize true)
    (hok : t₀.validateResetStreamPrecondition p reset = .ok p') :
    t.receiveResetStream reset = (.error .invalidWindow, t) ∨
    ∃ t', t.receiveResetStream reset = (.ok (), t') ∧ TableShadow t₀ t' p' := by
  unfold validateResetStreamPrecondition at hok
  obtain ⟨u, hid, hok⟩ := bind_eq_ok hok
  obtain ⟨⟨shadow, p₁⟩, hent, hok⟩ := bind_eq_ok hok
  rcases h.openStream hid hent with hbad | ⟨entry, t₁, hopen, h₁, hfind₁⟩
  · simp [hbad, StreamTable.receiveResetStream]
  right
  obtain ⟨hfindT, hsid, hs, A, hwf⟩ := h₁.opened hopen hfind₁
  obtain ⟨mid, hmid, hok⟩ := bind_eq_ok hok
  rw [← hsid] at hagree
  obtain ⟨hmidId, hlim, hstate, hfinal, hhigh, hknown⟩ := finalSize hwf hs hagree hmid
  obtain ⟨hbig, hok⟩ := of_guard hok nofun
  obtain ⟨hshort, hok⟩ := of_guard hok nofun
  obtain ⟨p₂, hcred, hok⟩ := bind_eq_ok hok
  rw [Except.ok.injEq] at hok
  rw [hstate.total] at hcred hshort
  obtain ⟨t₂, hcharge, hp₂⟩ := h₁.credit hcred
  obtain ⟨flow, hflow⟩ := RecvFlow.receive_of_le
    (show reset.finalSize ≤ entry.flow.limit by rw [← hlim]; omega)
  have hflowLimit := (RecvFlow.receive_ok hflow).2
  have hrun : t.receiveResetStream reset
      = (.ok (), t₂.putRecvStreamEntry (afterReset entry reset flow)) := by
    unfold StreamTable.receiveResetStream
    rw [hopen]
    simp only
    rw [applyFinalSize_of_agree hhigh hknown]
    simp only
    rw [show (withFinal entry reset.finalSize true).flow = entry.flow from rfl, hflow]
    simp only
    have hcount : { withFinal entry reset.finalSize true with
        flow := flow }.recvState.receivedByteCount = entry.recvState.receivedTotal := rfl
    rw [hcount, if_neg hshort, hcharge]
    rfl
  refine ⟨_, hrun, ?_⟩
  obtain ⟨hfindP, hbeside⟩ :=
    find_charge_put hfindT hcharge (show (afterReset entry reset flow).streamId = _ from hsid)
  rw [← hok, hp₂]
  refine h₁.update (by rw [hfind₁]; simp) ?_ hbeside rfl (.inl rfl) hfindP
    ⟨A, hwf.afterReset (hhigh rfl) (fun k hk => (hknown k hk).2 rfl)⟩
    ⟨?_, hstate, hfinal, withFinal_hidden hs.hidden (fun k hk => (hknown k hk).2)⟩
  · show mid.streamId = _
    rw [hmidId]
    exact key_of_find? (fun e : RecvStreamPreflightEntry => e.streamId) hfind₁
  · show mid.flowLimit = flow.limit
    rw [hlim, hflowLimit]

/-- A frame that contradicts the hidden final size opens its stream at most. -/
theorem receiveStream_disagree (h : TableShadow t₀ t p) {frame : StreamFrame}
    (hdisagree : ¬ t₀.AgreesHidden frame.streamId (frame.offset + frame.data.length) frame.fin)
    (hok : t₀.validateStreamFramePrecondition p frame = .ok p') :
    ∃ e t', t.receiveStream frame = (.error e, t') ∧ TableWF t' := by
  unfold validateStreamFramePrecondition at hok
  obtain ⟨u, hid, hok⟩ := bind_eq_ok hok
  obtain ⟨⟨shadow, p₁⟩, hent, -⟩ := bind_eq_ok hok
  unfold StreamTable.receiveStream
  rcases h.openStream hid hent with hbad | ⟨entry, t₁, hopen, h₁, hfind₁⟩
  · rw [hbad]
    exact ⟨_, t, rfl, h.wf⟩
  obtain ⟨-, hsid, hs, -⟩ := h₁.opened hopen hfind₁
  rw [← hsid] at hdisagree
  obtain ⟨e, he⟩ := disagree hs hdisagree
  rw [hopen]
  cases hadd : checkedAdd frame.offset frame.data.length with
  | none => exact ⟨_, t₁, rfl, h₁.wf⟩
  | some stop =>
    obtain ⟨hstop, -⟩ := checkedAdd_eq_some.mp hadd
    simp only
    rw [hstop, he]
    exact ⟨e, t₁, rfl, h₁.wf⟩

lemma receiveResetStream_disagree (h : TableShadow t₀ t p) {reset : ResetStreamFrame}
    (hdisagree : ¬ t₀.AgreesHidden reset.streamId reset.finalSize true)
    (hok : t₀.validateResetStreamPrecondition p reset = .ok p') :
    ∃ e t', t.receiveResetStream reset = (.error e, t') ∧ TableWF t' := by
  unfold validateResetStreamPrecondition at hok
  obtain ⟨u, hid, hok⟩ := bind_eq_ok hok
  obtain ⟨⟨shadow, p₁⟩, hent, -⟩ := bind_eq_ok hok
  unfold StreamTable.receiveResetStream
  rcases h.openStream hid hent with hbad | ⟨entry, t₁, hopen, h₁, hfind₁⟩
  · rw [hbad]
    exact ⟨_, t, rfl, h.wf⟩
  obtain ⟨-, hsid, hs, -⟩ := h₁.opened hopen hfind₁
  rw [← hsid] at hdisagree
  obtain ⟨e, he⟩ := disagree hs hdisagree
  rw [hopen]
  simp only
  rw [he]
  exact ⟨e, t₁, rfl, h₁.wf⟩

/-! ### The sending side -/

lemma sendControlId (h : TableShadow t₀ t p) (hok : t₀.validateStreamSendControlId id = .ok ()) :
    streamInitiatedByLocal t.config.localEndpoint id = true → t.findSendStreamEntry id ≠ none := by
  intro hlocal
  rw [h.config] at hlocal
  unfold validateStreamSendControlId at hok
  obtain ⟨hside, hok⟩ := of_guard hok nofun
  rw [if_pos hlocal] at hok
  obtain ⟨hnone, hok⟩ := of_guard hok nofun
  exact h.sends id hnone

end TableShadow

/-- The tables agree on the receiving side, and no sending stream is dropped. -/
structure SendSide (t t' : StreamTable) : Prop where
  config : t'.config = t.config
  recvStreams : t'.recvStreams = t.recvStreams
  recvFlow : t'.recvFlow = t.recvFlow
  total : t'.recvDataTotal = t.recvDataTotal
  maxBidi : t'.recvMaxStreamsBidi = t.recvMaxStreamsBidi
  maxUni : t'.recvMaxStreamsUni = t.recvMaxStreamsUni
  sends : ∀ id, t.findSendStreamEntry id ≠ none → t'.findSendStreamEntry id ≠ none

namespace SendSide

lemma refl (t : StreamTable) : SendSide t t := ⟨rfl, rfl, rfl, rfl, rfl, rfl, fun _ h => h⟩

lemma trans {t₁ t₂ t₃ : StreamTable} (h₁ : SendSide t₁ t₂) (h₂ : SendSide t₂ t₃) :
    SendSide t₁ t₃ :=
  ⟨h₂.config.trans h₁.config, h₂.recvStreams.trans h₁.recvStreams, h₂.recvFlow.trans h₁.recvFlow,
    h₂.total.trans h₁.total, h₂.maxBidi.trans h₁.maxBidi, h₂.maxUni.trans h₁.maxUni,
    fun id h => h₂.sends id (h₁.sends id h)⟩

lemma shadow {t₀ t t' : StreamTable} {p : StreamPreflight} (h : SendSide t t')
    (hs : TableShadow t₀ t p) : TableShadow t₀ t' p := by
  have hfind : ∀ id, t'.findRecvStreamEntry id = t.findRecvStreamEntry id := by
    simp [h.recvStreams, findRecvStreamEntry]
  refine ⟨?_, h.config.trans hs.config, h.maxBidi.trans hs.maxBidi, h.maxUni.trans hs.maxUni,
    by rw [h.recvFlow]; exact hs.limit, fun id hid => h.sends id (hs.sends id hid),
    by rw [h.total]; exact hs.total, hs.pending, ?_, ?_⟩
  · intro id entry he
    rw [hfind] at he
    exact hs.wf id entry he
  · intro id hid
    rw [hfind]
    exact hs.untouched id hid
  intro id shadow hid
  rw [hfind]
  exact hs.touched id shadow hid

lemma put (t : StreamTable) (entry : StreamFlowEntry) : SendSide t (t.putSendStreamEntry entry) := by
  refine ⟨rfl, rfl, rfl, rfl, rfl, rfl, ?_⟩
  intro id hid
  have hrep := find?_replace (fun e : StreamFlowEntry => e.streamId) t.sendStreams entry id
  show (t.sendStreams.map _).find? _ ≠ none
  rw [hrep]
  obtain ⟨old, hold⟩ := ne_none_iff_exists'.mp hid
  by_cases hk : id = entry.streamId
  · rw [if_pos hk, show t.sendStreams.find? (fun e => e.streamId == id) = some old from hold]
    simp
  · rw [if_neg hk]
    exact hid

end SendSide

lemma sendStreamEntry_ok {t : StreamTable} {id : Nat}
    (hlocal : streamInitiatedByLocal t.config.localEndpoint id = true →
      t.findSendStreamEntry id ≠ none) :
    ∃ entry t', t.sendStreamEntry id = (.ok entry, t') ∧ SendSide t t' ∧
      t'.findSendStreamEntry id = some entry := by
  unfold sendStreamEntry
  cases hfind : t.findSendStreamEntry id with
  | some entry => exact ⟨entry, t, rfl, SendSide.refl t, hfind⟩
  | none =>
    have hpeer : ¬ streamInitiatedByLocal t.config.localEndpoint id = true :=
      fun hc => hlocal hc hfind
    rw [if_neg (fun hc => hpeer hc.1)]
    have hnew := find?_append_singleton (fun e : StreamFlowEntry => e.streamId) t.sendStreams
      ⟨id, SendFlow.init (t.initialSendStreamDataLimit id), 0, none, none, none⟩
    refine ⟨_, _, rfl, ⟨rfl, rfl, rfl, rfl, rfl, rfl, ?_⟩, ?_⟩
    · intro k hk
      show (t.sendStreams ++ [_]).find? _ ≠ none
      rw [hnew k hfind]
      by_cases hki : k = id
      · rw [if_pos hki]; simp
      · rw [if_neg hki]
        exact hk
    · show (t.sendStreams ++ [_]).find? _ = some _
      rw [hnew id hfind, if_pos rfl]

end StreamTable

end Netz.Quic
