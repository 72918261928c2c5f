/-
Over whole runs, every advertised stream window can be stored exactly as long as no release
of capacity overruns its buffer.

Both halves of a receiving stream are driven together: a frame charges the window and is
stored, and a release returns the same bytes to the window and to the storage.  So what was
consumed of the window is what was read of the stream, and a release is the only step that
can move the limit past the storage.
-/
import Netz.Proofs.StreamWindow

namespace Netz.Quic

open Lib RecvState RecvFlow List

/-! ### The two halves of a stream -/

/-- The window and the storage of a stream that were driven together. -/
structure Driven (flow : RecvFlow) (s : RecvState) : Prop where
  tracked : ∃ A, RecvState.Tracks A s
  ordered : flow.Ordered
  consumed : flow.consumed = s.readOffset
  high : s.highestReceivedEnd ≤ flow.highestReceived

/-- Reading `amount` bytes moves what the peer may send past the end of the storage. -/
def Overruns (flow : RecvFlow) (s : RecvState) (amount : Nat) : Prop :=
  s.storageAfterRead amount + s.maxBuffered < s.reachableEnd (flow.limitAfter amount)

instance (flow : RecvFlow) (s : RecvState) (amount : Nat) : Decidable (Overruns flow s amount) :=
  inferInstanceAs (Decidable (_ < _))

namespace Driven

variable {flow flow' : RecvFlow} {s s' : RecvState}

lemma opened {limit window maxWindow id maxBuffered : Nat}
    (h : initWithMaxWindow limit window maxWindow = .ok flow) :
    Driven flow (init id maxBuffered) := by
  obtain ⟨hord, -, hused⟩ := initWithMaxWindow_ok h
  exact ⟨⟨∅, init_tracks id maxBuffered⟩, hord, hused, Nat.zero_le _⟩

lemma receive (h : Driven flow s) {stop : Nat} (hok : flow.receive stop = .ok flow') :
    Driven flow' s := by
  obtain ⟨hord, -, hused, hgrew, -⟩ := receive_spec h.ordered hok
  exact ⟨h.tracked, hord, hused.trans h.consumed, Nat.le_trans h.high hgrew⟩

lemma insert (h : Driven flow s) {frame : StreamFrame} {n : Nat}
    (hok : flow.receive (frame.offset + frame.data.length) = .ok flow')
    (hins : s.insertTracked frame = (.ok n, s')) : Driven flow' s' := by
  obtain ⟨A, hA⟩ := h.tracked
  obtain ⟨hord, -, hused, hgrew, hstop⟩ := receive_spec h.ordered hok
  have hhigh := (insertTracked_final hA hins).2.2
  have hpre := h.high
  refine ⟨⟨_, (insertTracked_tracks hA hins).1⟩, hord, ?_, ?_⟩
  · rw [insertTracked_readOffset hins]
    exact hused.trans h.consumed
  · omega

lemma refused (h : Driven flow s) {frame : StreamFrame} {e : Error}
    (hins : s.insertTracked frame = (.error e, s')) : s' = s := by
  obtain ⟨A, hA⟩ := h.tracked
  cases hrej : rejection s frame with
  | some e' =>
    rw [insertTracked_rejected hA hrej, Prod.mk.injEq] at hins
    exact hins.2.symm
  | none =>
    obtain ⟨n, s'', hok⟩ := insertTracked_accepted hA hrej
    simp [hok] at hins

/-- **One release**: the halves stay together, and the new limit is storable unless the read
overruns the buffer. -/
theorem release (h : Driven flow s) {amount : Nat} (hpos : 0 < amount)
    (hread : s.consume amount = (.ok (), s')) :
    Driven (flow.consume amount).2 s' ∧
      (s'.Storable (flow.consume amount).2.limit ↔ ¬Overruns flow s amount) := by
  obtain ⟨A, hA⟩ := h.tracked
  obtain ⟨hA', -, -, hwithin⟩ := @RecvState.consume_ok [] A s s' hA amount hread
  obtain ⟨hstorage, hmaxBuffered, hreadOffset⟩ := consume_storage hA hpos hread
  obtain ⟨-, hfinal, hhigh⟩ := consume_keeps hread
  have hcontiguous := hA.contiguous_le_high
  have hpre := h.high
  have hconsumed := h.consumed
  obtain ⟨hord, hconsumed', hhighest', hlimit'⟩ :=
    consume_spec h.ordered hpos (by omega)
  refine ⟨⟨⟨A, hA'⟩, hord, ?_, ?_⟩, ?_⟩
  · rw [hconsumed', hreadOffset, hconsumed]
  · omega
  rw [storable_iff hA' hord.limit, hlimit', hstorage, hmaxBuffered]
  have hreach : s'.reachableEnd (flow.limitAfter amount) =
      s.reachableEnd (flow.limitAfter amount) := by
    unfold reachableEnd
    rw [hfinal]
  rw [hreach]
  exact not_lt.symm

end Driven

/-- A driven stream whose whole window can be stored. -/
def Fitting (flow : RecvFlow) (s : RecvState) : Prop :=
  Driven flow s ∧ s.Storable flow.limit

namespace Fitting

variable {flow flow' : RecvFlow} {s s' : RecvState}

lemma opened {limit window maxWindow id maxBuffered : Nat}
    (h : initWithMaxWindow limit window maxWindow = .ok flow)
    (hroom : limit ≤ maxBuffered) : Fitting flow (init id maxBuffered) := by
  obtain ⟨hord, hlim, -⟩ := initWithMaxWindow_ok h
  refine ⟨Driven.opened h, ?_⟩
  rw [storable_iff (init_tracks id maxBuffered) hord.limit, hlim]
  exact Nat.le_trans (reachableEnd_le _ _) (hroom.trans (Nat.le_add_left _ _))

lemma receive (h : Fitting flow s) {stop : Nat} (hok : flow.receive stop = .ok flow') :
    Fitting flow' s := by
  obtain ⟨-, hlim, -, -, -⟩ := receive_spec h.1.ordered hok
  refine ⟨h.1.receive hok, ?_⟩
  rw [hlim]
  exact h.2

lemma insert (h : Fitting flow s) {frame : StreamFrame} {n : Nat}
    (hok : flow.receive (frame.offset + frame.data.length) = .ok flow')
    (hins : s.insertTracked frame = (.ok n, s')) : Fitting flow' s' := by
  have hdriven := h.1.insert hok hins
  obtain ⟨A, hA⟩ := h.1.tracked
  obtain ⟨A', hA'⟩ := hdriven.tracked
  obtain ⟨hord, hlim, -, -, hstop⟩ := receive_spec h.1.ordered hok
  have hwithin := hord.received
  obtain ⟨hstorage, hmaxBuffered, hreach⟩ :=
    insertTracked_reachable hA hins (hstop.trans hwithin)
  have hfit := (storable_iff hA h.1.ordered.limit).mp h.2
  refine ⟨hdriven, ?_⟩
  rw [storable_iff hA' hord.limit, hstorage, hmaxBuffered]
  rw [hlim] at hreach ⊢
  exact hreach.trans hfit

end Fitting

/-! ### Frames for a table of streams -/

namespace StreamTable

variable {P : RecvFlow → RecvState → Prop} {t t' : StreamTable}

/-- Every open stream satisfies `P`. -/
def AllStreams (P : RecvFlow → RecvState → Prop) (t : StreamTable) : Prop :=
  ∀ id entry, t.findRecvStreamEntry id = some entry → P entry.flow entry.recvState

/-- A property that holds of new streams and survives received frames. -/
structure SurvivesFrames (P : RecvFlow → RecvState → Prop) : Prop where
  opened : ∀ {limit window maxWindow id maxBuffered : Nat} {flow : RecvFlow},
    initWithMaxWindow limit window maxWindow = .ok flow → limit ≤ maxBuffered →
    P flow (RecvState.init id maxBuffered)
  receive : ∀ {flow flow' : RecvFlow} {s : RecvState} {stop : Nat}, P flow s →
    flow.receive stop = .ok flow' → P flow' s
  insert : ∀ {flow flow' : RecvFlow} {s s' : RecvState} {frame : StreamFrame} {n : Nat},
    P flow s → flow.receive (frame.offset + frame.data.length) = .ok flow' →
    s.insertTracked frame = (.ok n, s') → P flow' s'
  refused : ∀ {flow : RecvFlow} {s s' : RecvState} {frame : StreamFrame} {e : Error}, P flow s →
    s.insertTracked frame = (.error e, s') → s' = s

lemma driven_survives : SurvivesFrames Driven where
  opened := fun h _ => Driven.opened h
  receive := fun h hok => h.receive hok
  insert := fun h hok hins => h.insert hok hins
  refused := fun h hins => h.refused hins

lemma fitting_survives : SurvivesFrames Fitting where
  opened := fun h hroom => Fitting.opened h hroom
  receive := fun h hok => h.receive hok
  insert := fun h hok hins => h.insert hok hins
  refused := fun h hins => h.1.refused hins

lemma AllStreams.put (h : AllStreams P t) {entry : StreamRecvFlowEntry}
    (hent : P entry.flow entry.recvState) : AllStreams P (t.putRecvStreamEntry entry) := by
  intro id found hfound
  rw [find_put] at hfound
  by_cases hid : id = entry.streamId
  · rw [if_pos hid, Option.map_eq_some_iff] at hfound
    obtain ⟨_, -, heq⟩ := hfound
    rw [← heq]
    exact hent
  · rw [if_neg hid] at hfound
    exact h id found hfound

lemma AllStreams.of_eq (h : AllStreams P t) (heq : t'.recvStreams = t.recvStreams) :
    AllStreams P t' := by
  intro id entry hfind
  unfold findRecvStreamEntry at hfind
  rw [heq] at hfind
  exact h id entry hfind

lemma recvStreamFlow_all (hP : SurvivesFrames P) (h : AllStreams P t) {id : Nat}
    {entry : StreamRecvFlowEntry} (hrun : t.recvStreamFlow id = (.ok entry, t')) :
    P entry.flow entry.recvState ∧ AllStreams P t' := by
  obtain ⟨-, hfind, hbeside, -, -⟩ := recvStreamFlow_ok hrun
  have hent : P entry.flow entry.recvState := by
    unfold recvStreamFlow at hrun
    cases hold : t.findRecvStreamEntry id with
    | some old =>
      rw [hold] at hrun
      simp only [Prod.mk.injEq, Except.ok.injEq] at hrun
      rw [← hrun.1]
      exact h id old hold
    | none =>
      rw [hold] at hrun
      cases hv : t.validateStreamReceiveFrameId id with
      | error e => simp [hv] at hrun
      | ok _ =>
        rw [hv] at hrun
        cases hc : t.validatePeerStreamCount id with
        | error e => simp [hc] at hrun
        | ok _ =>
          rw [hc] at hrun
          cases hw : initWithMaxWindow (t.initialReceiveStreamDataLimit id)
              t.config.streamReceiveWindow
              (t.config.maxStreamReceiveWindow.getD t.config.streamReceiveWindow) with
          | error e =>
            rw [hw] at hrun
            exact absurd hrun (by simp)
          | ok flow =>
            rw [hw] at hrun
            simp only [Prod.mk.injEq, Except.ok.injEq] at hrun
            rw [← hrun.1]
            exact hP.opened hw (Nat.le_max_left _ _)
  refine ⟨hent, ?_⟩
  intro other found hfound
  by_cases hid : other = id
  · rw [hid, hfind, Option.some.injEq] at hfound
    rw [← hfound]
    exact hent
  · rw [hbeside.others other hid] at hfound
    exact h other found hfound

lemma applyFinalSize_halves {entry mid : StreamRecvFlowEntry} {size : Nat} {final : Bool}
    (h : applyFinalSize entry size final = .ok mid) :
    mid.flow = entry.flow ∧ mid.recvState = entry.recvState := by
  rw [(applyFinalSize_ok h).1]
  exact ⟨rfl, rfl⟩

lemma receiveStream_all (hP : SurvivesFrames P) (h : AllStreams P t) (frame : StreamFrame) :
    AllStreams P (t.receiveStream frame).2 := by
  unfold receiveStream
  cases hrun : t.recvStreamFlow frame.streamId with
  | mk result t₁ =>
  cases result with
  | error e =>
    rw [recvStreamFlow_error hrun]
    exact h
  | ok entry =>
  obtain ⟨hent, hall⟩ := recvStreamFlow_all hP h hrun
  cases hadd : checkedAdd frame.offset frame.data.length with
  | none => exact hall
  | some stop =>
  obtain ⟨hstop, -⟩ := checkedAdd_eq_some.mp hadd
  simp only
  cases hfinal : applyFinalSize entry stop frame.fin with
  | error e => exact hall
  | ok mid =>
  obtain ⟨hflow, hstate⟩ := applyFinalSize_halves hfinal
  rw [← hflow, ← hstate] at hent
  simp only
  cases hreceive : mid.flow.receive stop with
  | error e => exact hall.put hent
  | ok flow =>
  have hrecv := hP.receive hent hreceive
  rw [hstop] at hreceive
  cases hins : mid.recvState.insertTracked frame with
  | mk inserted recvState =>
  cases inserted with
  | error e =>
    have hsame := hP.refused hent hins
    apply hall.put
    rw [hsame]
    exact hrecv
  | ok newly =>
  have hinserted := hP.insert hent hreceive hins
  simp only
  cases hcharge : t₁.charge newly with
  | error e => exact hall.put hinserted
  | ok t₂ => exact (hall.of_eq (charge_ok hcharge).2.1).put hinserted

lemma receiveResetStream_all (hP : SurvivesFrames P) (h : AllStreams P t)
    (reset : ResetStreamFrame) : AllStreams P (t.receiveResetStream reset).2 := by
  unfold receiveResetStream
  cases hrun : t.recvStreamFlow reset.streamId with
  | mk result t₁ =>
  cases result with
  | error e =>
    rw [recvStreamFlow_error hrun]
    exact h
  | ok entry =>
  obtain ⟨hent, hall⟩ := recvStreamFlow_all hP h hrun
  simp only
  cases hfinal : applyFinalSize entry reset.finalSize true with
  | error e => exact hall
  | ok mid =>
  obtain ⟨hflow, hstate⟩ := applyFinalSize_halves hfinal
  rw [← hflow, ← hstate] at hent
  simp only
  cases hreceive : mid.flow.receive reset.finalSize with
  | error e => exact hall.put hent
  | ok flow =>
  have hrecv := hP.receive hent hreceive
  simp only
  by_cases hshort : reset.finalSize < mid.recvState.receivedByteCount
  · rw [if_pos hshort]
    exact hall.put hrecv
  rw [if_neg hshort]
  cases hcharge : t₁.charge (reset.finalSize - mid.recvState.receivedByteCount) with
  | error e => exact hall.put hrecv
  | ok t₂ => exact (hall.of_eq (charge_ok hcharge).2.1).put hrecv

/-! ### Calls of the application -/

lemma releaseCompletedPeerStream_all (h : AllStreams P t) (id : Nat) (sent : Bool) :
    AllStreams P (t.releaseCompletedPeerStream id sent).2 := by
  rcases releaseCompletedPeerStream_cases t id sent with
    ⟨_, -, hrun⟩ | ⟨-, entry, marked, hfind, -, rfl, hrun⟩
  · rw [hrun]
    exact h
  have hput : AllStreams P
      (t.putRecvStreamEntry { entry with streamCountCreditReleased := true }) :=
    h.put (h id entry hfind)
  rcases hrun with ⟨-, hrun⟩ | ⟨_, _, hrun, -⟩
  · rw [hrun]
    exact hput
  · rw [hrun]
    exact hput.of_eq rfl

/-- A release whose read overruns the buffer of its stream. -/
def OverrunsStream (t : StreamTable) (streamId amount : Nat) : Prop :=
  amount ≠ 0 ∧ ∃ entry, t.findRecvStreamEntry streamId = some entry ∧
    amount ≤ entry.recvState.available.length ∧ Overruns entry.flow entry.recvState amount

lemma consume_available {s : RecvState} {amount : Nat} (h : amount ≤ s.available.length) :
    ∃ s', s.consume amount = (.ok (), s') := by
  unfold RecvState.consume
  by_cases hzero : amount = 0
  · simp [hzero]
  · rw [if_neg hzero, if_neg (by omega)]
    exact ⟨_, rfl⟩

/-- **One release over a table.**  It fails and changes nothing, or drives both halves of its
stream. -/
theorem releaseReceivedCapacity_cases (t : StreamTable) (id amount : Nat) (sent : Bool) :
    ((t.releaseReceivedCapacity id amount sent).2 = t ∧
        (sent = true → ¬OverrunsStream t id amount)) ∨
      ∃ entry s' recvFlow, amount ≠ 0 ∧ t.findRecvStreamEntry id = some entry ∧
        amount ≤ entry.recvState.available.length ∧
        (sent = false → (entry.flow.consume amount).1 = none) ∧
        entry.recvState.consume amount = (.ok (), s') ∧
        (t.releaseReceivedCapacity id amount sent).2 =
          { t with recvFlow := recvFlow }.putRecvStreamEntry
            { entry with flow := (entry.flow.consume amount).2, recvState := s' } := by
  unfold releaseReceivedCapacity
  by_cases hzero : amount = 0
  · rw [if_pos hzero]
    exact .inl ⟨rfl, fun _ hover => hover.1 hzero⟩
  rw [if_neg hzero]
  cases hfind : t.findRecvStreamEntry id with
  | none =>
    refine .inl ⟨rfl, ?_⟩
    intro _ hover
    obtain ⟨-, entry, hent, -, -⟩ := hover
    simp [hfind] at hent
  | some entry =>
  simp only
  by_cases hshort : entry.recvState.available.length < amount
  · rw [if_pos hshort]
    refine .inl ⟨rfl, ?_⟩
    intro _ hover
    obtain ⟨-, entry', hent, hle, -⟩ := hover
    rw [hfind, Option.some.injEq] at hent
    rw [← hent] at hle
    omega
  rw [if_neg hshort]
  by_cases hlost : ((t.recvFlow.consume amount).1 ≠ none ∨ (entry.flow.consume amount).1 ≠ none) ∧
      sent = false
  · simp [hlost]
  rw [if_neg hlost]
  obtain ⟨s', hread⟩ := consume_available (not_lt.mp hshort)
  rw [hread]
  refine .inr ⟨entry, s', (t.recvFlow.consume amount).2, hzero, rfl, by omega, ?_, hread, rfl⟩
  intro hsent
  by_contra hmoved
  exact hlost ⟨.inr hmoved, hsent⟩

lemma limit_of_silent {f : RecvFlow} {amount : Nat} (h : (f.consume amount).1 = none) :
    (f.consume amount).2.limit = f.limit := by
  unfold RecvFlow.consume at h ⊢
  by_cases hzero : amount = 0
  · rw [if_pos hzero]
  rw [if_neg hzero] at h ⊢
  by_cases hnone : f.highestReceived ≤ f.consumed
  · rw [if_pos hnone]
  rw [if_neg hnone] at h ⊢
  unfold advanceLimit at h ⊢
  by_cases hhalf : f.limit - min f.highestReceived (saturatingAdd f.consumed amount) ≤ f.window / 2
  · rw [if_pos hhalf] at h ⊢
    by_cases hkeep : min (saturatingAdd
        ({ f with consumed := min f.highestReceived (saturatingAdd f.consumed amount) } :
          RecvFlow).maybeGrowWindow.consumed
        ({ f with consumed := min f.highestReceived (saturatingAdd f.consumed amount) } :
          RecvFlow).maybeGrowWindow.window) varintMax ≤
        ({ f with consumed := min f.highestReceived (saturatingAdd f.consumed amount) } :
          RecvFlow).maybeGrowWindow.limit
    · rw [if_pos hkeep]
      exact maybeGrowWindow_limit _
    · simp [hkeep] at h
  · rw [if_neg hhalf]

/-- A release that advertises nothing keeps what was storable. -/
theorem storable_of_silent {flow : RecvFlow} {s s' : RecvState} {amount : Nat}
    (h : Fitting flow s) (hpos : 0 < amount) (hread : s.consume amount = (.ok (), s'))
    (hsilent : (flow.consume amount).1 = none) : s'.Storable (flow.consume amount).2.limit := by
  obtain ⟨A, hA⟩ := h.1.tracked
  have hdriven := (h.1.release hpos hread).1
  obtain ⟨A', hA'⟩ := hdriven.tracked
  obtain ⟨hstorage, hmaxBuffered, -⟩ := consume_storage hA hpos hread
  obtain ⟨-, hfinal, -⟩ := consume_keeps hread
  have hlag := hA.storageLeRead
  have hmoved : s.storageOffset ≤ s.storageAfterRead amount := by
    unfold storageAfterRead
    split
    · exact le_rfl
    · omega
  have hfit := (storable_iff hA h.1.ordered.limit).mp h.2
  rw [storable_iff hA' hdriven.ordered.limit, limit_of_silent hsilent, hmaxBuffered]
  have hreach : s'.reachableEnd flow.limit = s.reachableEnd flow.limit := by
    unfold reachableEnd
    rw [hfinal]
  omega

lemma releaseReceivedCapacity_driven (h : AllStreams Driven t) (id amount : Nat)
    (sent : Bool) : AllStreams Driven (t.releaseReceivedCapacity id amount sent).2 := by
  rcases releaseReceivedCapacity_cases t id amount sent with
    ⟨heq, -⟩ | ⟨entry, s', recvFlow, hpos, hfind, -, -, hread, heq⟩
  · rw [heq]
    exact h
  rw [heq]
  have hsame : AllStreams Driven { t with recvFlow := recvFlow } := h.of_eq rfl
  apply hsame.put
  exact ((h id entry hfind).release (Nat.pos_of_ne_zero hpos) hread).1

/-- **A release keeps every window storable exactly when it overruns no buffer.** -/
theorem releaseReceivedCapacity_fitting (h : AllStreams Fitting t) (id amount : Nat) (sent : Bool) :
    AllStreams Fitting (t.releaseReceivedCapacity id amount sent).2 ↔
      (sent = true → ¬OverrunsStream t id amount) := by
  rcases releaseReceivedCapacity_cases t id amount sent with
    ⟨heq, hclear⟩ | ⟨entry, s', recvFlow, hpos, hfind, hle, hsilent, hread, heq⟩
  · rw [heq]
    exact ⟨fun _ => hclear, fun _ => h⟩
  have hent := h id entry hfind
  have hid := streamId_of_find hfind
  obtain ⟨hdriven, hfits⟩ := hent.1.release (Nat.pos_of_ne_zero hpos) hread
  have hsame : AllStreams Fitting { t with recvFlow := recvFlow } := h.of_eq rfl
  rw [heq]
  constructor
  · intro hall _ hover
    obtain ⟨-, entry', hfind', -, hoverruns⟩ := hover
    rw [hfind, Option.some.injEq] at hfind'
    rw [← hfind'] at hoverruns
    rw [← hid] at hfind
    have hfound : ({ t with recvFlow := recvFlow }.putRecvStreamEntry { entry with
        flow := (entry.flow.consume amount).2, recvState := s' }).findRecvStreamEntry
          entry.streamId =
        some { entry with flow := (entry.flow.consume amount).2, recvState := s' } := by
      apply find_put_self
      exact hfind
    have hput := hall entry.streamId _ hfound
    exact hfits.mp hput.2 hoverruns
  intro hclear
  apply hsame.put
  refine ⟨hdriven, ?_⟩
  by_cases hsent : sent = true
  · rw [hfits]
    intro hover
    exact hclear hsent ⟨hpos, entry, hfind, hle, hover⟩
  · exact storable_of_silent hent (Nat.pos_of_ne_zero hpos) hread
      (hsilent (by simpa using hsent))

/-! ### Runs -/

/-- What drives the receiving half of the streams of a connection. -/
inductive WindowOp where
  | stream (frame : StreamFrame)
  | reset (reset : ResetStreamFrame)
  | release (streamId amount : Nat) (sent : Bool)
  | releaseCompleted (streamId : Nat) (sent : Bool)

def windowStep (t : StreamTable) : WindowOp → Except Error Unit × StreamTable
  | .stream frame => t.receiveStream frame
  | .reset reset => t.receiveResetStream reset
  | .release streamId amount sent => t.releaseReceivedCapacity streamId amount sent
  | .releaseCompleted streamId sent =>
    match t.releaseCompletedPeerStream streamId sent with
    | (.error e, t) => (.error e, t)
    | (.ok _, t) => (.ok (), t)

/-- No release of the step overruns the buffer of its stream. -/
def KeepsPace (t : StreamTable) : WindowOp → Prop
  | .release streamId amount sent => sent = true → ¬OverrunsStream t streamId amount
  | _ => True

/-- Whatever the peer may send on an open stream, its buffer does not refuse for its size. -/
def WindowsStorable (t : StreamTable) : Prop :=
  ∀ id entry, t.findRecvStreamEntry id = some entry → entry.recvState.Storable entry.flow.limit

lemma windowStep_completed (t : StreamTable) (id : Nat) (sent : Bool) :
    (t.windowStep (.releaseCompleted id sent)).2 = (t.releaseCompletedPeerStream id sent).2 := by
  cases hrun : t.releaseCompletedPeerStream id sent with
  | mk result t' => cases result <;> simp only [windowStep, hrun]

lemma windowStep_driven (h : AllStreams Driven t) (op : WindowOp) :
    AllStreams Driven (t.windowStep op).2 := by
  cases op with
  | stream frame => exact receiveStream_all driven_survives h frame
  | reset reset => exact receiveResetStream_all driven_survives h reset
  | release id amount sent => exact releaseReceivedCapacity_driven h id amount sent
  | releaseCompleted id sent =>
    rw [windowStep_completed]
    exact releaseCompletedPeerStream_all h id sent

lemma windowStep_fitting (h : AllStreams Fitting t) (op : WindowOp) :
    AllStreams Fitting (t.windowStep op).2 ↔ KeepsPace t op := by
  cases op with
  | stream frame => exact ⟨fun _ => trivial, fun _ => receiveStream_all fitting_survives h frame⟩
  | reset reset =>
    exact ⟨fun _ => trivial, fun _ => receiveResetStream_all fitting_survives h reset⟩
  | release id amount sent => exact releaseReceivedCapacity_fitting h id amount sent
  | releaseCompleted id sent =>
    rw [windowStep_completed]
    exact ⟨fun _ => trivial, fun _ => releaseCompletedPeerStream_all h id sent⟩

lemma fitting_iff (h : AllStreams Driven t) : AllStreams Fitting t ↔ WindowsStorable t :=
  ⟨fun hall id entry hfind => (hall id entry hfind).2,
    fun hall id entry hfind => ⟨h id entry hfind, hall id entry hfind⟩⟩

lemma run_storable_iff (ops : List WindowOp) : ∀ {t : StreamTable}, AllStreams Fitting t →
    ((∀ e ∈ trace windowStep t ops, WindowsStorable e.post) ↔
      ∀ e ∈ trace windowStep t ops, KeepsPace e.pre e.input) := by
  induction ops with
  | nil => simp
  | cons op rest ih =>
    intro t h
    have hdriven : AllStreams Driven t := fun id entry hfind => (h id entry hfind).1
    have hstep : WindowsStorable (t.windowStep op).2 ↔ KeepsPace t op := by
      rw [← fitting_iff (windowStep_driven hdriven op)]
      exact windowStep_fitting h op
    rw [trace_cons, forall_mem_cons, forall_mem_cons]
    have hhead : (event windowStep t op).post = (t.windowStep op).2 := rfl
    rw [hhead, hstep]
    constructor
    · intro hall
      exact ⟨hall.1, (ih ((windowStep_fitting h op).mpr hall.1)).mp hall.2⟩
    · intro hall
      exact ⟨hall.1, (ih ((windowStep_fitting h op).mpr hall.1)).mpr hall.2⟩

lemma init_fitting {config : ConnectionConfig} (h : init config = .ok t) :
    AllStreams Fitting t := by
  unfold init at h
  cases hflow : initWithMaxWindow config.initialReceiveMaxData config.receiveWindow
      (config.maxReceiveWindow.getD config.receiveWindow) with
  | error e => simp [hflow] at h
  | ok flow =>
    rw [hflow] at h
    simp only [Except.ok.injEq] at h
    intro id entry hfind
    simp [← h, findRecvStreamEntry] at hfind

/-- **The advertised windows stay storable exactly in the runs whose releases keep pace.** -/
theorem windows_storable_iff {config : ConnectionConfig} (hinit : init config = .ok t)
    (ops : List WindowOp) :
    (∀ e ∈ trace windowStep t ops, WindowsStorable e.post) ↔
      ∀ e ∈ trace windowStep t ops, KeepsPace e.pre e.input :=
  run_storable_iff ops (init_fitting hinit)

/-- A server whose streams start with a window and a buffer of eight bytes. -/
def eightByteServer : ConnectionConfig where
  localEndpoint := .server
  initialReceiveMaxStreamData := 8
  streamReceiveWindow := 8

/-- The table it starts with. -/
def eightByteTable : StreamTable where
  config := eightByteServer
  recvFlow := { limit := 2 ^ 62 - 1, window := 64 * 1024, maxWindow := 64 * 1024 }
  peerMaxStreamsBidi := 2 ^ 60 - 1
  peerMaxStreamsUni := 2 ^ 60 - 1
  recvMaxStreamsBidi := 2 ^ 60 - 1
  recvMaxStreamsUni := 2 ^ 60 - 1

lemma eightByteTable_init : init eightByteServer = .ok eightByteTable := by decide

/-- Eight bytes arrive and are all released, which empties the storage as it moves the limit. -/
def releasedRun : List WindowOp :=
  [.stream ⟨0, 0, false, [1, 2, 3, 4, 5, 6, 7, 8]⟩, .release 0 8 true, .stream ⟨0, 8, true, [9]⟩]

theorem windows_storable_iff_released :
    init eightByteServer = .ok eightByteTable ∧
      ∀ e ∈ trace windowStep eightByteTable releasedRun, WindowsStorable e.post :=
  ⟨eightByteTable_init, (windows_storable_iff eightByteTable_init releasedRun).mpr (by
    intro e he
    unfold releasedRun at he
    rw [trace_cons, trace_cons, trace_cons, trace_nil, mem_cons, mem_cons, mem_singleton] at he
    rcases he with h | h | h <;> rw [h]
    · trivial
    · rintro - ⟨-, entry, hfind, -, hover⟩
      have hnone : ((eightByteTable.windowStep (.stream ⟨0, 0, false, [1, 2, 3, 4, 5, 6, 7, 8]⟩)).2
          |>.findRecvStreamEntry 0).all (fun entry => !decide (Overruns entry.flow entry.recvState 8))
            = true := by decide
      have hentry := (Option.all_eq_true _ _).mp hnone entry hfind
      simp [hover] at hentry
    · trivial)⟩

/-- Small reads compact the storage early, the next one only moves the limit: the last bytes
of the window do not fit. -/
theorem advertised_window_refused :
    ¬ ∀ (config : ConnectionConfig) (t : StreamTable), init config = .ok t → ∀ ops,
      ∀ e ∈ trace windowStep t ops, WindowsStorable e.post := by
  intro h
  have hall := h eightByteServer eightByteTable eightByteTable_init
    [.stream ⟨0, 0, false, [1, 2, 3, 4, 5, 6, 7, 8]⟩, .release 0 4 true, .release 0 2 true,
      .stream ⟨0, 8, false, [9, 10, 11, 12]⟩, .release 0 2 true]
  have hfind : ∃ entry, (exec windowStep eightByteTable
      [.stream ⟨0, 0, false, [1, 2, 3, 4, 5, 6, 7, 8]⟩, .release 0 4 true, .release 0 2 true,
        .stream ⟨0, 8, false, [9, 10, 11, 12]⟩, .release 0 2 true]).findRecvStreamEntry 0 =
          some entry ∧ entry.flow.limit = 16 ∧
      (entry.recvState.insertTracked ⟨0, 12, false, [13, 14, 15, 16]⟩).1 =
        .error .streamBufferTooLarge := by
    refine ⟨_, rfl, ?_, ?_⟩
    · decide
    · decide
  obtain ⟨entry, hentry, hlimit, hrefused⟩ := hfind
  have hstorable := hall _ (by
    exact mem_cons_of_mem _ (mem_cons_of_mem _ (mem_cons_of_mem _
      (mem_cons_of_mem _ (mem_singleton.mpr rfl))))) 0 entry hentry
  apply hstorable ⟨0, 12, false, [13, 14, 15, 16]⟩ _ hrefused
  rw [hlimit]
  decide

end StreamTable

end Netz.Quic
