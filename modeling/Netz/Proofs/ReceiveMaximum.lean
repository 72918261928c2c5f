/-
Receive Maximum.

The client may have only so many PUBLISH packets of a connection unacknowledged.  `drainInto`
keeps to that by counting the inflight messages that have been sent and wait for a PUBACK or a
PUBREC.  A packet leaves that count when a PUBREC arrives or its message expires, which is
before the client has it back: the bound holds over a run as long as the count misses nothing
when a drain relies on it.
-/
import Netz.Proofs.Retransmission

namespace Netz.Mqtt

open Lib Transmission Session List

def Transmission.publishId? : Transmission → Option Nat
  | .publish packet => some packet.packetId
  | .pubrel _ => none

namespace Store

/-! ### Watching a connection -/

/-- The store, with the packet identifiers of the PUBLISH packets outstanding on one network
connection: returned by a drain, and neither taken back nor acknowledged for good. -/
structure Watched where
  store : Store
  outstanding : List Nat := []

/-- The packet identifiers of the PUBLISH packets among what a drain returns. -/
def publishIds (out : List Transmission) : List Nat :=
  out.filterMap publishId?

/-- What a call and its reply do to the packets outstanding on the connection of `handle`. -/
def afterReply (handle : Handle) (outstanding : List Nat) : Op → Reply → List Nat
  | .openSession _ _ _ _ _, .opened (.ok result) =>
    if result.handle = handle then [] else outstanding
  | .disconnect h _ _, .disconnected (.ok _) => if h = handle then [] else outstanding
  | .drainInto h _ _ _ _, .drained (.ok out) =>
    if h = handle then outstanding ++ publishIds out else outstanding
  | .retryUnsentPublish h packetId, .retried (.ok _)
  | .handleAck h _ packetId _, .acknowledged (.ok .completed)
  | .dropOversizedPublish h packetId, .dropped (.ok .dropped) =>
    if h = handle then outstanding.filter (· ≠ packetId) else outstanding
  | _, _ => outstanding

def watch (handle : Handle) (watched : Watched) (op : Op) : Reply × Watched :=
  let r := watched.store.step op
  (r.1, { store := r.2, outstanding := afterReply handle watched.outstanding op r.1 })

/-- The drains of the connection use one Receive Maximum. -/
def DrainsWith (handle : Handle) (receiveMaximum : Nat) : Op → Prop
  | .drainInto h _ rm _ _ => h = handle → rm = receiveMaximum
  | _ => True

/-- The PUBLISH packets that a drain at `nowNs` counts against the window. -/
def counted (session : Session) (nowNs : Int) : Nat :=
  (session.settled nowNs).reduceOption.countP fun inflight =>
    inflight.isPublish && !inflight.needsSend

/-- The PUBLISH packets that wait to be sent at `nowNs`, again or for the first time. -/
def unsent (session : Session) (nowNs : Int) : Nat :=
  (pending (session.settled nowNs)).length
    + (session.queued.reduceOption.filter fun publish => !Held.hasExpired nowNs publish).length

/-- A drain of the connection counts every packet outstanding on it, or has so little to send
that it does not matter. -/
def Paced (handle : Handle) (watched : Watched) : Op → Prop
  | .drainInto h nowNs receiveMaximum _ _ =>
    h = handle → ∀ session ∈ watched.store.getSession handle,
      watched.outstanding.length ≤ counted session nowNs ∨
        watched.outstanding.length + unsent session nowNs ≤ receiveMaximum
  | _ => True

instance (handle : Handle) (receiveMaximum : Nat) (op : Op) :
    Decidable (DrainsWith handle receiveMaximum op) :=
  match op with
  | .drainInto _ _ _ _ _ => inferInstanceAs (Decidable (_ → _))
  | .openSession _ _ _ _ _ | .disconnect _ _ _ | .enqueuePublish _ _ _ _ _ _ _ _
  | .retryUnsentPublish _ _ | .handleAck _ _ _ _ | .dropOversizedPublish _ _ => isTrue trivial

instance (handle : Handle) (watched : Watched) (op : Op) : Decidable (Paced handle watched op) :=
  match op with
  | .drainInto _ _ _ _ _ => inferInstanceAs (Decidable (_ → ∀ session ∈ _, _))
  | .openSession _ _ _ _ _ | .disconnect _ _ _ | .enqueuePublish _ _ _ _ _ _ _ _
  | .retryUnsentPublish _ _ | .handleAck _ _ _ _ | .dropOversizedPublish _ _ => isTrue trivial

/-! ### What a drain returns -/

lemma publishIds_length (out : List Transmission) :
    (publishIds out).length = (out.filterMap serial?).length := by
  unfold publishIds
  induction out with
  | nil => rfl
  | cons transmission rest ih =>
    cases transmission with
    | publish packet =>
      rw [filterMap_cons_some (by rfl), filterMap_cons_some (by rfl),
        length_cons, length_cons, ih]
    | pubrel packetId =>
      rw [filterMap_cons_none (by rfl), filterMap_cons_none (by rfl), ih]

end Store

namespace Session

lemma resendLoop_window (nowNs : Int) (receiveMaximum capacity : Nat) :
    ∀ (slots : List (Option Inflight)) (out : List Transmission) (used : Nat),
      (resendLoop nowNs receiveMaximum capacity slots out used).publishWindowUsed
          + (out.filterMap serial?).length
        = used + ((resendLoop nowNs receiveMaximum capacity slots out used).out.filterMap
            serial?).length ∧
      (resendLoop nowNs receiveMaximum capacity slots out used).publishWindowUsed
        ≤ max used receiveMaximum := by
  intro slots
  induction slots with
  | nil => intro out used; exact ⟨rfl, by simp [resendLoop]⟩
  | cons slot rest ih =>
    intro out used
    cases slot with
    | none =>
      unfold resendLoop
      split
      · exact ⟨rfl, Nat.le_max_left _ _⟩
      · exact ih out used
    | some inflight =>
      unfold resendLoop
      simp only [transmissionForInflight_isPublish]
      split
      · exact ⟨rfl, Nat.le_max_left _ _⟩
      split
      · exact ih out used
      next hsend =>
        simp only [Bool.or_eq_true, Bool.and_eq_true, decide_eq_true_eq, not_or, not_and] at hsend
        by_cases hpub : inflight.isPublish = true
        · obtain ⟨hcount, hmax⟩ := ih
            (out ++ [transmissionForInflight inflight nowNs]) (used + 1)
          have hroom := hsend.2 hpub
          have hlen : ((out ++ [transmissionForInflight inflight nowNs]).filterMap
              serial?).length
                = (out.filterMap serial?).length + 1 := by
            simp [transmissionForInflight_serial?, hpub]
          simp only [hpub, if_true]
          exact ⟨by omega, by omega⟩
        obtain ⟨hcount, hmax⟩ := ih
          (out ++ [transmissionForInflight inflight nowNs]) used
        have hlen : ((out ++ [transmissionForInflight inflight nowNs]).filterMap
            serial?).length
              = (out.filterMap serial?).length := by simp [transmissionForInflight_serial?, hpub]
        rw [hlen] at hcount
        simp only [hpub]
        exact ⟨hcount, hmax⟩

lemma drainLoop_out (nowNs : Int) :
    ∀ (slots : Nat) (loop : DrainLoop),
      ((drainLoop nowNs slots loop).2.out.filterMap serial?).length
          + (drainLoop nowNs slots loop).2.available
        ≤ (loop.out.filterMap serial?).length + loop.available := by
  intro slots
  induction slots with
  | zero => intro loop; exact le_rfl
  | succ slots ih =>
    intro loop
    unfold drainLoop
    split
    · exact le_rfl
    next hmore =>
      split
      · exact le_rfl
      · exact ih _
      split
      · exact le_rfl
      next transmission _ _ =>
        refine Nat.le_trans (ih _) ?_
        have hone := length_filterMap_le serial? [transmission]
        simp only [filterMap_append, length_append, length_singleton]
          at hone ⊢
        omega

lemma drainQueue_out {session session' : Session} {nowNs : Int} {out out' : List Transmission}
    {available : Nat} (h : session.drainQueue nowNs out available = (.ok out', session')) :
    (out'.filterMap serial?).length ≤ (out.filterMap serial?).length + available := by
  have hloop := drainLoop_out nowNs session.queued.length
    { session := session, out := out, available := available, queueIndex := session.queuedHead }
  unfold drainQueue at h
  split at h
  · simp at h
  next loop hrun =>
    simp only [Prod.mk.injEq, Except.ok.injEq] at h
    rw [hrun] at hloop
    rw [← h.1]
    simp only at hloop
    omega

end Session

namespace Store

variable {held : Held} {nowNs : Int} {receiveMaximum capacity : Nat} {out : List Transmission}
  {store : Store} {handle : Handle}

lemma counted_eq (nowNs : Int) :
    (held.pruneExpiredPublishes nowNs).session.countSentPublishInflight
      = counted held.session nowNs := by
  unfold countSentPublishInflight counted
  rw [pruneExpired_inflight]
  rfl

lemma resend_bounds (held : Held) (nowNs : Int) (receiveMaximum capacity : Nat) :
    let pass := (held.pruneExpiredPublishes nowNs).session.resend nowNs receiveMaximum capacity
    pass.publishWindowUsed = counted held.session nowNs + (publishIds pass.out).length ∧
    ((publishIds pass.out).length = 0 ∨ pass.publishWindowUsed ≤ receiveMaximum) ∧
    (publishIds pass.out).length ≤ (pending (held.session.settled nowNs)).length := by
  intro pass
  have hpass : pass = resendLoop nowNs receiveMaximum capacity
      (held.pruneExpiredPublishes nowNs).session.inflight [] (counted held.session nowNs) := by
    rw [← counted_eq]
    rfl
  obtain ⟨hwin, hmax⟩ := resendLoop_window nowNs receiveMaximum capacity
    (held.pruneExpiredPublishes nowNs).session.inflight [] (counted held.session nowNs)
  obtain ⟨taken, htaken, hpend, hnone⟩ := resendLoop_taken nowNs receiveMaximum
    capacity (held.pruneExpiredPublishes nowNs).session.inflight [] (counted held.session nowNs)
  rw [← hpass] at hwin hmax htaken hpend
  have hlen : (publishIds pass.out).length = taken.length := by
    rw [publishIds_length, htaken]
    rfl
  rw [publishIds_length]
  refine ⟨hwin, ?_, ?_⟩
  · by_cases hfull : receiveMaximum ≤ counted held.session nowNs
    · simp [← publishIds_length, hlen, hnone hfull]
    · omega
  rw [← publishIds_length, ← pruneExpired_inflight, hpend, length_append]
  omega

/-- **A drain sends only what its window has room for**, and only what waits to be sent. -/
theorem drainInto_bounds (hinv : held.session.Inv) {maxInflightPerSession : Nat} {memory : Bool}
    (h : (held.drainInto maxInflightPerSession nowNs receiveMaximum capacity memory).1 = .ok out) :
    ((publishIds out).length = 0 ∨
      counted held.session nowNs + (publishIds out).length ≤ receiveMaximum) ∧
    (publishIds out).length ≤ unsent held.session nowNs := by
  obtain ⟨hused, hfits, hpend⟩ := resend_bounds held nowNs receiveMaximum capacity
  have hqueued : (held.pruneExpiredPublishes nowNs).session.queuedCount
      = (held.session.queued.reduceOption.filter fun publish =>
          !Held.hasExpired nowNs publish).length := by
    rw [(hinv.pruneExpired nowNs).queue.count, pruneExpired_waiting hinv]
    rfl
  have hunsent : unsent held.session nowNs
      = (pending (held.session.settled nowNs)).length
        + (held.pruneExpiredPublishes nowNs).session.queuedCount := by
    rw [hqueued]
    rfl
  have hagain : ∀ out',
      out' = ((held.pruneExpiredPublishes nowNs).session.resend nowNs receiveMaximum capacity).out →
      ((publishIds out').length = 0 ∨
        counted held.session nowNs + (publishIds out').length ≤ receiveMaximum) ∧
      (publishIds out').length ≤ unsent held.session nowNs := by
    intro out' hout
    rw [hout]
    omega
  unfold Held.drainInto at h
  simp only at h
  split at h
  · simp only [Except.ok.injEq] at h
    exact hagain out h.symm
  split at h
  · simp only [Except.ok.injEq] at h
    exact hagain out h.symm
  split at h
  · simp at h
  split at h
  · simp at h
  have hnew := drainQueue_out (Prod.ext h rfl)
  rw [← publishIds_length, ← publishIds_length] at hnew
  simp only [afterResend] at hnew
  omega

/-! ### Runs -/

lemma onSession_ok {α : Type} {call : Held → Except Error α × Held} {a : α}
    (h : (store.onSession handle call).1 = .ok a) :
    ∃ session, store.getSession handle = some session ∧
      (call ⟨session, store.totalBytes⟩).1 = .ok a := by
  unfold Store.onSession at h
  split at h
  · simp at h
  · next session hses => exact ⟨session, hses, h⟩

lemma drainInto_ok {memory : Memory}
    (h : (store.drainInto handle nowNs receiveMaximum capacity memory).1 = .ok out) :
    ∃ session, store.getSession handle = some session ∧
      (Held.drainInto ⟨session, store.totalBytes⟩ store.options.maxInflightPerSession nowNs
        receiveMaximum capacity memory.tables).1 = .ok out := by
  unfold Store.drainInto at h
  split at h
  · simp at h
  · exact onSession_ok h

/-- **One call keeps the bound.** -/
theorem afterReply_bounded {watched : Watched} (hsound : Sound watched.store)
    (hbound : watched.outstanding.length ≤ receiveMaximum) {op : Op}
    (hdrains : DrainsWith handle receiveMaximum op) (hpaced : Paced handle watched op) :
    (watch handle watched op).2.outstanding.length ≤ receiveMaximum := by
  have hfilter : ∀ packetId, (watched.outstanding.filter (· ≠ packetId)).length
      ≤ receiveMaximum := by
    intro packetId
    exact Nat.le_trans (length_filter_le _ _) hbound
  simp only [watch]
  unfold afterReply
  split
  · split
    · exact Nat.zero_le _
    · exact hbound
  · split
    · exact Nat.zero_le _
    · exact hbound
  · next h nowNs rm capacity memory out hreply =>
      split
      · next hsame =>
          subst hsame
          have hrm := hdrains rfl
          simp only [step, Reply.drained.injEq] at hreply
          obtain ⟨session, hses, hout⟩ := drainInto_ok hreply
          have hinv := hsound h.index session (getSession_eq_some hses)
          obtain ⟨hwin, hunsent⟩ := drainInto_bounds hinv hout
          rw [length_append]
          rcases hpaced rfl session hses with hcounted | hlittle
          · simp only at hwin
            omega
          · simp only at hunsent
            omega
      · exact hbound
  · split
    · exact hfilter _
    · exact hbound
  · split
    · exact hfilter _
    · exact hbound
  · split
    · exact hfilter _
    · exact hbound
  · exact hbound

/-- **Receive Maximum is respected** in every run whose drains count all that is outstanding. -/
theorem receive_maximum_respected (options : Options) (handle : Handle) (receiveMaximum : Nat)
    (ops : List Op) (hdrains : ∀ op ∈ ops, DrainsWith handle receiveMaximum op)
    (hpaced : ∀ e ∈ trace (watch handle) { store := { options := options } } ops,
      Paced handle e.pre e.input) :
    (exec (watch handle) { store := { options := options } } ops).outstanding.length
      ≤ receiveMaximum := by
  have hinputs : ∀ e ∈ trace (watch handle) { store := { options := options } } ops,
      DrainsWith handle receiveMaximum e.input ∧ Paced handle e.pre e.input := by
    intro e he
    exact ⟨hdrains e.input (input_mem he), hpaced e he⟩
  refine (trace_induction (watch handle)
    (fun watched op => DrainsWith handle receiveMaximum op ∧ Paced handle watched op)
    (fun _ watched => Sound watched.store ∧ watched.outstanding.length ≤ receiveMaximum)
    ?_ ?_ ops hinputs).2
  · exact ⟨by intro index session h; simp at h, Nat.zero_le _⟩
  · intro _ watched op hboth hP
    exact ⟨step_sound hboth.1 op, afterReply_bounded hboth.1 hboth.2 hP.1 hP.2⟩

/-- Three messages through a window of two, one of them acknowledged in between. -/
def threeThroughTwo : List Op :=
  [.openSession [0x61] false 60 0 {},
    .enqueuePublish ⟨0, 1⟩ [0x74] [0x31] .atLeastOnce false [] 0 {},
    .enqueuePublish ⟨0, 1⟩ [0x74] [0x32] .exactlyOnce false [] 0 {},
    .enqueuePublish ⟨0, 1⟩ [0x74] [0x33] .atLeastOnce false [] 0 {},
    .drainInto ⟨0, 1⟩ 0 2 4 {},
    .handleAck ⟨0, 1⟩ .puback 1 0,
    .drainInto ⟨0, 1⟩ 0 2 4 {}]

theorem receive_maximum_respected_three :
    (exec (watch ⟨0, 1⟩) { store := { options := {} } } threeThroughTwo).outstanding = [2, 3] ∧
    (exec (watch ⟨0, 1⟩) { store := { options := {} } } threeThroughTwo).outstanding.length ≤ 2 :=
  ⟨by decide +kernel,
    receive_maximum_respected {} ⟨0, 1⟩ 2 threeThroughTwo (by decide) (by decide +kernel)⟩

/-- Two QoS 2 messages through a window of one: the second is sent when the first is received
but not completed. -/
def releaseBeforeComplete : List Op :=
  [.openSession [0x61] false 60 0 {},
    .enqueuePublish ⟨0, 1⟩ [0x74] [0x31] .exactlyOnce false [] 0 {},
    .enqueuePublish ⟨0, 1⟩ [0x74] [0x32] .exactlyOnce false [] 0 {},
    .drainInto ⟨0, 1⟩ 0 1 1 {},
    .handleAck ⟨0, 1⟩ .pubrec 1 0,
    .drainInto ⟨0, 1⟩ 0 1 1 {},
    .drainInto ⟨0, 1⟩ 0 1 1 {}]

theorem pubrec_exceeds_receive_maximum :
    (∀ op ∈ releaseBeforeComplete, DrainsWith ⟨0, 1⟩ 1 op) ∧
    (exec (watch ⟨0, 1⟩) { store := { options := {} } } releaseBeforeComplete).outstanding
      = [1, 2] ∧
    ¬ (exec (watch ⟨0, 1⟩) { store := { options := {} } }
        releaseBeforeComplete).outstanding.length ≤ 1 := by
  have hrun : (exec (watch ⟨0, 1⟩) { store := { options := {} } }
      releaseBeforeComplete).outstanding = [1, 2] := by
    decide +kernel
  refine ⟨by decide, hrun, ?_⟩
  rw [hrun]
  decide

end Store

end Netz.Mqtt
