/-
The received-data total of a connection, over whole runs.

`frameLog` reads the accepted data frames off a trace.  After every run whose packets are
accepted the table accounts for the log, so the total is right exactly when no frame of the
log recharges, and a peer that only repeats itself is not cut off.
-/
import Netz.Proofs.AcceptedFrames
import Netz.Proofs.Connection
import Netz.Proofs.Repeats

namespace Netz.Quic

open Lib List StreamTable

namespace Connection

variable {M : Type} {c : Connection M} (est : Estimators M)

/-! ### A peer that repeats itself -/

/-- Every frame of the packet has been accepted before, and costs nothing now. -/
def OnlyRepeats (log : List DataFrame) (packet : Packet) : Prop :=
  ∀ f ∈ packet.frames, ∃ frame ∈ log, dataFrame f.1 = some frame ∧ ¬ Recharges log frame

variable {frame : Frame} {log : List DataFrame} {packet : Packet} {config : ConnectionConfig}
  {frameConfig : FrameConfig} {metrics : M} {localId peerId : Bytes} {token : ResetToken}

lemma dataFrame_stream {data : StreamFrame} (h : dataFrame frame = some (.stream data)) :
    frame = .stream data := by
  cases frame <;> simp_all [dataFrame]

lemma dataFrame_reset {data : ResetStreamFrame} (h : dataFrame frame = some (.reset data)) :
    frame = .resetStream data := by
  cases frame <;> simp_all [dataFrame]

lemma repeats_agree (h : Accounts log c.streams) (hrep : OnlyRepeats log packet) :
    PacketAgrees c packet := by
  intro f hf
  obtain ⟨frame, hlogged, hdata, -⟩ := hrep f hf
  obtain ⟨entry, hfind, hfinal, hbounds⟩ := h.seen frame hlogged
  obtain ⟨hwf, -⟩ := h.entries _ entry hfind
  have hhidden : ∀ known, c.streams.hiddenFinalSize frame.streamId = some known →
      entry.finalSize = some known := by simp [hfind, hiddenFinalSize]
  cases frame with
  | stream data =>
    rw [dataFrame_stream hdata]
    intro known hknown
    have hent := hhidden known hknown
    have habove := hwf.finalAbove known hent
    refine ⟨Nat.le_trans hbounds.1 habove, ?_⟩
    intro hfin
    have := hfinal _ (show DataFrame.finalSize (.stream data) = some _ from if_pos hfin)
    rw [hent, Option.some.injEq] at this
    exact this.symm
  | reset data =>
    rw [dataFrame_reset hdata]
    intro known hknown
    have hsize := hfinal data.finalSize rfl
    rw [hhidden known hknown, Option.some.injEq] at hsize
    exact ⟨Nat.le_of_eq hsize.symm, fun _ => hsize.symm⟩

lemma preflightFrames_unmoved (h : Accounts log c.streams)
    {destination : Option Bytes} {e : Error} :
    ∀ (frames : List Frame) (p : Preflight), Unmoved c.streams p.streams →
      (∀ f ∈ frames, ∃ frame ∈ log, dataFrame f = some frame ∧ ¬ Recharges log frame) →
      c.preflightFrames destination p frames = .error e → e ≠ .flowControlViolation := by
  intro frames
  induction frames with
  | nil => intro p _ _ herr; simp [preflightFrames] at herr
  | cons f rest ih =>
    intro p hp hrep herr
    have hrest := fun g hg => hrep g (mem_cons_of_mem f hg)
    obtain ⟨frame, hlogged, hdata, hclean⟩ := hrep f mem_cons_self
    unfold preflightFrames at herr
    have hfinish : ∀ {run : Except Error StreamPreflight},
        StaysUnmoved c.streams run → c.preflightFrame destination p f
          = (run >>= fun streams => .ok { p with streams := streams }) →
        e ≠ .flowControlViolation := by
      intro run hstays hrun
      rw [hrun] at herr
      cases run with
      | error e' =>
        cases herr
        exact hstays.1 e rfl
      | ok streams => exact ih _ (hstays.2 streams rfl) hrest herr
    cases frame with
    | stream data =>
      refine hfinish (stream_unmoved h hp hlogged (span_subset_arrived hlogged)) ?_
      rw [dataFrame_stream hdata]
      rfl
    | reset data =>
      have hsize : data.finalSize ≤ (arrived log data.streamId).card := by
        by_contra hlow
        exact hclean ⟨resetSize_ne_none hlogged, by omega⟩
      refine hfinish (reset_unmoved h hp hlogged hsize) ?_
      rw [dataFrame_reset hdata]
      rfl

/-- **A packet that only repeats is not answered with a flow-control error.** -/
theorem repeats_accepted (hinv : Inv c) (h : Accounts log c.streams)
    (hrep : OnlyRepeats log packet) :
    (c.applyReceivedFramesForDestination est packet).1 ≠ .error .flowControlViolation := by
  intro hviol
  have hwhole := (packet_handled est hinv packet).2 (repeats_agree h hrep)
  cases hpre : c.validateReceivedFramePreconditions (packet.frames.map (·.1))
      packet.destinationConnectionId with
  | ok u =>
    have hlocal := hwhole.accepted hpre _ hviol
    simp [Error.isLocal] at hlocal
  | error e =>
    have he : e ≠ .flowControlViolation := by
      unfold validateReceivedFramePreconditions at hpre
      cases hframes : c.preflightFrames packet.destinationConnectionId c.preflightStart
          (packet.frames.map (·.1)) with
      | ok p => rw [hframes] at hpre; simp at hpre
      | error e' =>
        rw [hframes] at hpre
        simp only [Except.error.injEq] at hpre
        rw [← hpre]
        refine preflightFrames_unmoved h _ _ ⟨rfl, ?_⟩ ?_ hframes
        · simp [preflightStart, StreamPreflight.find]
        intro f hf
        rw [mem_map] at hf
        obtain ⟨g, hg, rfl⟩ := hf
        exact hrep g hg
    unfold applyReceivedFramesForDestination at hviol
    cases hfresh : c.received.wouldRecordFresh packet.packetNumber with
    | error e' =>
      rw [hfresh] at hviol
      simp only [Except.error.injEq] at hviol
      have hlocal := wouldRecordFresh_error hfresh
      rw [hviol] at hlocal
      simp [Error.isLocal] at hlocal
    | ok fresh =>
      rw [hfresh] at hviol
      cases fresh with
      | false => simp at hviol
      | true =>
        rw [hpre] at hviol
        simp only [Except.error.injEq] at hviol
        exact he hviol

/-! ### Runs -/

/-- The data frames of the packets of a run, newest first. -/
def frameLog : List (Event (Connection M) (Op M) (Except Error Unit)) → List DataFrame
  | [] => []
  | e :: rest =>
    match e.input with
    | .packet packet => frameLog rest ++ dataFrames packet.frames
    | _ => frameLog rest

lemma frameLog_append (h : List (Event (Connection M) (Op M) (Except Error Unit)))
    (e : Event (Connection M) (Op M) (Except Error Unit)) :
    frameLog (h ++ [e]) = frameLog [e] ++ frameLog h := by
  induction h with
  | nil => simp [frameLog]
  | cons first rest ih =>
    rw [cons_append]
    unfold frameLog
    cases hinput : first.input with
    | packet packet =>
      simp only
      rw [ih, append_assoc]
      rfl
    | _ => exact ih

lemma init_accounts (h : init config frameConfig metrics localId peerId token = .ok c) :
    Accounts [] c.streams := by
  obtain ⟨-, hstreams, htotal⟩ := init_streams h
  refine ⟨?_, by simp, htotal⟩
  simp [findRecvStreamEntry, hstreams]

lemma step_accounts (h : Accounts log c.streams) (op : Op M)
    (hok : ∀ packet, op = .packet packet → (step est c op).1 = .ok ()) :
    Accounts (frameLog [event (step est) c op] ++ log) (step est c op).2.streams := by
  cases op with
  | packet packet =>
    show Accounts (([] ++ dataFrames packet.frames) ++ log) _
    exact packet_accounts est h (hok packet rfl)
  | send | skipPacketNumber | markPacketAcknowledged | lossTimer | releaseReceivedCapacity
  | consumeReceived | consumeStreamReceived | releaseCompletedPeerStream | other =>
    exact h.kept (step_kept est c (by simp))

lemma run_accounts (hinit : init config frameConfig metrics localId peerId token = .ok c)
    (ops : List (Op M))
    (hacc : ∀ e ∈ trace (step est) c ops, ∀ packet, e.input = .packet packet → e.output = .ok ()) :
    Accounts (frameLog (trace (step est) c ops)) (exec (step est) c ops).streams := by
  refine trace_induction (step est)
    (fun s op => ∀ packet, op = .packet packet → (step est s op).1 = .ok ())
    (fun h s => Accounts (frameLog h) s.streams) (init_accounts hinit) ?_ ops ?_
  · intro h s op hs hok
    rw [frameLog_append]
    exact step_accounts est hs op hok
  intro e he packet hinput
  obtain ⟨-, hevent⟩ := trace_pre (step est) (fun _ => True) trivial (fun _ _ _ => trivial) ops e he
  have hout := hacc e he packet hinput
  rw [hevent] at hout
  exact hout

/-- A stream is never charged more than its final size. -/
theorem charged_le_final {t : StreamTable} (h : Accounts log t) {frame : DataFrame}
    (hframe : frame ∈ log) {size : Nat} (hsize : frame.finalSize = some size) :
    charged log frame.streamId ≤ size := by
  obtain ⟨entry, hfind, hfinal, -⟩ := h.seen frame hframe
  obtain ⟨hwf, hreset⟩ := h.entries _ entry hfind
  have hknown := hfinal size hsize
  unfold charged
  cases hr : entry.reset with
  | none =>
    rw [hr] at hreset
    rw [← hreset]
    show (arrived log frame.streamId).card ≤ size
    have hcard : (arrived log frame.streamId).card ≤ entry.recvState.highestReceivedEnd := by
      have hsub : arrived log frame.streamId ⊆ Finset.range entry.recvState.highestReceivedEnd := by
        intro i hi
        exact Finset.mem_range.mpr (hwf.tracks.high i hi)
      simpa using Finset.card_le_card hsub
    have h₁ := hwf.highLe
    have h₂ := hwf.finalAbove size hknown
    omega
  | some r =>
    rw [hr] at hreset
    rw [← hreset]
    have := hwf.resetFinal r hr
    rw [hknown, Option.some.injEq] at this
    show r.finalSize ≤ size
    omega

/--
**The received-data total.**  In every run whose packets are accepted, the total is what the
streams should cost exactly when no frame recharged a stream that had been reset.  What a
stream should cost is bounded by its final size, and a packet that only repeats frames, none
of which recharges, is not answered with a flow-control error.
-/
theorem received_total_iff {config : ConnectionConfig} {frameConfig : FrameConfig} {metrics : M}
    {localId peerId : Bytes} {token : ResetToken}
    (hinit : init config frameConfig metrics localId peerId token = .ok c) (ops : List (Op M))
    (haccepted : ∀ e ∈ trace (step est) c ops, ∀ packet, e.input = .packet packet → e.output = .ok ()) :
    ((exec (step est) c ops).streams.recvDataTotal
        = ∑ id ∈ streamIds (frameLog (trace (step est) c ops)),
            charged (frameLog (trace (step est) c ops)) id
      ↔ NeverRecharges (frameLog (trace (step est) c ops))) ∧
    (∀ frame ∈ frameLog (trace (step est) c ops), ∀ size, frame.finalSize = some size →
      charged (frameLog (trace (step est) c ops)) frame.streamId ≤ size) ∧
    (∀ packet, OnlyRepeats (frameLog (trace (step est) c ops)) packet →
      (step est (exec (step est) c ops) (.packet packet)).1 ≠ .error .flowControlViolation) := by
  have haccounts := run_accounts est hinit ops haccepted
  have hinv : Inv (exec (step est) c ops) :=
    exec_induction (step est) Inv (init_inv hinit) (fun s op hs => step_inv est hs op) ops
  refine ⟨?_, ?_, ?_⟩
  · rw [← recharged_eq_zero_iff, haccounts.total]
    omega
  · intro frame hframe size hsize
    exact charged_le_final haccounts hframe hsize
  · intro packet hrep
    exact repeats_accepted est hinv haccounts hrep

/-! ### A reset that arrives again -/

/-- A server that lets its peer send 25 bytes. -/
def smallServer : Connection Unit :=
  (init { localEndpoint := .server, initialReceiveMaxData := 25 } {} () [1] [2]
    (Vector.replicate 16 0)).toOption.get rfl

lemma smallServer_init :
    init { localEndpoint := .server, initialReceiveMaxData := 25 } {} () [1] [2]
      (Vector.replicate 16 0) = .ok smallServer := rfl

/-- One frame and nothing else. -/
def framePacket (packetNumber : Nat) (frame : Frame) (h : frame.wellFormed = true) : Packet where
  packetNumber := packetNumber
  frames := [(frame, .sent 0 none)]
  wellFormed := by
    intro f hf
    rw [mem_singleton] at hf
    rw [hf]
    exact h

def resetAgain (packetNumber : Nat) : Op Unit :=
  .packet (framePacket packetNumber (.resetStream ⟨0, 0, 10⟩) (by decide))

/-- A byte, the reset at that byte, and both again: nothing is charged twice. -/
theorem received_total_iff_complete_stream :
    (exec (step silent) smallServer
      [.packet (framePacket 0 (.stream ⟨0, 0, false, [7]⟩) (by decide)),
        .packet (framePacket 1 (.resetStream ⟨0, 0, 1⟩) (by decide)),
        .packet (framePacket 2 (.resetStream ⟨0, 0, 1⟩) (by decide)),
        .packet (framePacket 3 (.stream ⟨0, 0, false, [7]⟩) (by decide))]).streams.recvDataTotal
      = ∑ id ∈ streamIds [.stream ⟨0, 0, false, [7]⟩, .reset ⟨0, 0, 1⟩, .reset ⟨0, 0, 1⟩,
            .stream ⟨0, 0, false, [7]⟩],
          charged [.stream ⟨0, 0, false, [7]⟩, .reset ⟨0, 0, 1⟩, .reset ⟨0, 0, 1⟩,
            .stream ⟨0, 0, false, [7]⟩] id := by
  refine (received_total_iff silent smallServer_init _ ?_).1.mpr ?_
  · intro e he packet hinput
    simp only [trace_cons, trace_nil, mem_cons, not_mem_nil, or_false] at he
    rcases he with rfl | rfl | rfl | rfl <;> decide
  · refine ⟨⟨⟨⟨trivial, ?_⟩, ?_⟩, ?_⟩, ?_⟩ <;> decide

/--
A peer that sends the same RESET_STREAM three times.  The second copy is charged again,
and the third is answered with a flow-control error.
-/
theorem repeated_reset_charged_twice :
    (exec (step silent) smallServer [resetAgain 0, resetAgain 1]).streams.recvDataTotal = 20 ∧
    (∑ id ∈ streamIds [.reset ⟨0, 0, 10⟩, .reset ⟨0, 0, 10⟩],
      charged [.reset ⟨0, 0, 10⟩, .reset ⟨0, 0, 10⟩] id) = 10 ∧
    (∀ e ∈ trace (step silent) smallServer [resetAgain 0, resetAgain 1], e.output = .ok ()) ∧
    (step silent (exec (step silent) smallServer [resetAgain 0, resetAgain 1]) (resetAgain 2)).1
      = .error .flowControlViolation := by
  refine ⟨by decide, by decide, ?_, by decide⟩
  intro e he
  simp only [trace_cons, trace_nil, mem_cons, not_mem_nil, or_false] at he
  rcases he with rfl | rfl <;> decide

end Connection

end Netz.Quic
