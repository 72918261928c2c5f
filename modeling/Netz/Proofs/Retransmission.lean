/-
The order of retransmission.

A drain keeps the order of the window when it sends nothing for the first time or finds no
vacant slot in front of an unacknowledged PUBLISH.  In a run whose drains all do, the PUBLISH
packets sent again after a reconnect stand in the order in which they were first sent; a slot
freed by an acknowledgement and taken by a later message breaks it.
-/
import Netz.Proofs.WindowOrder

namespace Netz.Mqtt

open Lib Inflight Held List

namespace Session

/-- The inflight table without the messages that a drain at `nowNs` finds expired. -/
def settled (session : Session) (nowNs : Int) : List (Option Inflight) :=
  session.inflight.map
    (Option.filter fun inflight => !(inflight.isPublish && hasExpired nowNs inflight.publish))

/-- A drain sends nothing for the first time, or puts it behind every PUBLISH still
unacknowledged. -/
def KeepsOrder (session : Session) (nowNs : Int) (receiveMaximum : Nat) : Prop :=
  (∀ publish ∈ session.queued.reduceOption, hasExpired nowNs publish = true) ∨
    receiveMaximum ≤ (session.settled nowNs).reduceOption.countP isPublish ∨
    Packed isPublish (session.settled nowNs)

instance (session : Session) (nowNs : Int) (receiveMaximum : Nat) :
    Decidable (session.KeepsOrder nowNs receiveMaximum) :=
  inferInstanceAs (Decidable (_ ∨ _ ∨ _))

/-! ### A whole drain -/

/-- What a drain keeps in a slot. -/
def keepUnexpired (nowNs : Int) : Option Inflight → Option Inflight :=
  Option.filter fun inflight => !(inflight.isPublish && hasExpired nowNs inflight.publish)

lemma pruneSlot_inflight (nowNs : Int) (held : Held) (index i : Nat) :
    (pruneSlot nowNs held index).session.inflight[i]?
      = if index = i then held.session.inflight[i]?.map (keepUnexpired nowNs)
        else held.session.inflight[i]? := by
  unfold pruneSlot
  split
  · next inflight hslot =>
      by_cases hi : index = i
      · subst hi
        have hlt := lt_of_getElem? hslot
        rw [if_pos rfl]
        split
        · next hstays =>
            have hkeep : (inflight.isPublish && hasExpired nowNs inflight.publish) = false := by
              rcases hstays with hstate | hfresh
              · simp [isPublish, hstate]
              · simp [hfresh]
            have hfilter : keepUnexpired nowNs (some inflight) = some inflight := by
              simp only [keepUnexpired, Option.filter, hkeep, Bool.not_false, if_true]
            rw [hslot, Option.map_some, hfilter]
        next hgone =>
          have hdrop : (inflight.isPublish && hasExpired nowNs inflight.publish) = true := by
            simpa [isPublish] using hgone
          have hfilter : keepUnexpired nowNs (some inflight) = none := by
            simp only [keepUnexpired, Option.filter, hdrop, Bool.not_true, Bool.false_eq_true,
              if_false]
          rw [hslot, Option.map_some, hfilter]
          simp [removeInflight, hlt]
      split
      · rfl
      · simp [removeInflight, hi]
  next hvacant =>
    by_cases hi : index = i
    · subst hi
      rw [if_pos rfl]
      cases hslot : held.session.inflight[index]? with
      | none => rfl
      | some slot =>
        cases slot with
        | none => rfl
        | some inflight => exact absurd hslot (hvacant inflight)
    · rw [if_neg hi]

lemma pruneSlots_inflight (nowNs : Int) (held : Held) (n i : Nat) :
    ((range n).foldl (pruneSlot nowNs) held).session.inflight[i]?
      = if i < n then held.session.inflight[i]?.map (keepUnexpired nowNs)
        else held.session.inflight[i]? := by
  induction n with
  | zero => rfl
  | succ n ih =>
    rw [range_succ, foldl_append, foldl_cons, foldl_nil, pruneSlot_inflight, ih]
    by_cases hi : n = i
    · subst hi
      rw [if_pos rfl, if_neg (Nat.lt_irrefl n), if_pos (Nat.lt_succ_self n)]
    rw [if_neg hi]
    by_cases hlt : i < n
    · rw [if_pos hlt, if_pos (by omega)]
    · rw [if_neg hlt, if_neg (by omega)]

lemma pruneExpired_inflight (held : Held) (nowNs : Int) :
    (held.pruneExpiredPublishes nowNs).session.inflight = held.session.settled nowNs := by
  have hsame : (held.pruneQueued nowNs).session.advanceQueueHead.inflight
      = held.session.inflight := (SameWindow.advance _).inflight
  apply ext_getElem?
  intro i
  unfold pruneExpiredPublishes pruneInflight
  rw [pruneSlots_inflight]
  simp only [hsame]
  unfold settled
  rw [getElem?_map]
  by_cases hlt : i < held.session.inflight.length
  · exact if_pos hlt
  · simp [hlt]

lemma pruneExpired_waiting {held : Held} (h : Inv held.session) (nowNs : Int) :
    (held.pruneExpiredPublishes nowNs).session.waiting
      = held.session.waiting.filter (fun publish => !hasExpired nowNs publish) := by
  have hfold : ∀ (indices : List Nat) (held : Held),
      (indices.foldl (pruneSlot nowNs) held).session.queued = held.session.queued := by
    intro indices
    induction indices with
    | nil => intro held; rfl
    | cons index rest ih =>
      intro held
      rw [foldl_cons, ih]
      unfold pruneSlot
      split
      · split <;> rfl
      · rfl
  rw [← pruneQueued_waiting h.queue nowNs, ← advanceQueueHead_waiting (h.pruneQueued nowNs).queue]
  unfold pruneExpiredPublishes pruneInflight waiting
  rw [hfold]

/-- Every unacknowledged PUBLISH is pending or counts against the window. -/
theorem countSent_add_pending (session : Session) :
    session.countSentPublishInflight + (pending session.inflight).length
      = session.inflight.reduceOption.countP isPublish := by
  have hsplit : ∀ l : List Inflight, l.countP (fun f => f.state != .awaitPubcomp && !f.needsSend)
        + (l.filter isPending).length = l.countP isPublish := by
    intro l
    induction l with
    | nil => rfl
    | cons f rest ih =>
      have hpublish : (f.state != .awaitPubcomp) = f.isPublish := rfl
      simp only [countP_cons, filter_cons, isPending, hpublish] at ih ⊢
      by_cases hp : f.isPublish = true <;> by_cases hn : f.needsSend = true <;>
        simp [hp, hn] <;> omega
  simp [hsplit, countSentPublishInflight, pending]

/-- A drain that has room for a first transmission finds the window packed. -/
theorem KeepsOrder.packed {held : Held} (hinv : Inv held.session) {nowNs : Int}
    {receiveMaximum capacity : Nat} (hkeeps : held.session.KeepsOrder nowNs receiveMaximum)
    (hqueued : (held.pruneExpiredPublishes nowNs).session.queuedCount ≠ 0)
    (hspace : ((held.pruneExpiredPublishes nowNs).session.resend nowNs receiveMaximum
      capacity).out.length ≠ capacity)
    (hwin : ((held.pruneExpiredPublishes nowNs).session.resend nowNs receiveMaximum
      capacity).publishWindowUsed < receiveMaximum) :
    Packed isPublish (held.session.settled nowNs) := by
  rcases hkeeps with hexp | hfull | hpacked
  · exfalso
    apply hqueued
    rw [(hinv.pruneExpired nowNs).queue.count, pruneExpired_waiting hinv,
      length_eq_zero_iff, filter_eq_nil_iff]
    intro publish hmem
    simpa using hexp publish hmem
  · exfalso
    have hused := resendLoop_used nowNs receiveMaximum capacity
      (held.pruneExpiredPublishes nowNs).session.inflight []
      (held.pruneExpiredPublishes nowNs).session.countSentPublishInflight hspace
    rw [countSent_add_pending, pruneExpired_inflight, Nat.min_eq_left hfull] at hused
    unfold resend at hwin
    rw [pruneExpired_inflight] at hwin
    omega
  · exact hpacked

/-- **Draining keeps the order.** -/
theorem Ordered.drainInto {held : Held} (h : Ordered held.session) (hinv : Inv held.session)
    (maxInflightPerSession : Nat) {nowNs : Int} {receiveMaximum : Nat}
    (hkeeps : held.session.KeepsOrder nowNs receiveMaximum) (capacity : Nat) (memory : Bool) :
    Ordered
      (held.drainInto maxInflightPerSession nowNs receiveMaximum capacity memory).2.session := by
  have hpruned := hinv.pruneExpired nowNs
  have hkept := (h.pruneExpired nowNs).afterResend nowNs receiveMaximum capacity
  have hresent := (h.pruneExpired nowNs).noteResent hpruned.books nowNs receiveMaximum capacity
  have hresentInv := (hpruned.afterResend nowNs receiveMaximum capacity).noteResent
    ((held.pruneExpiredPublishes nowNs).session.resend nowNs receiveMaximum capacity).out
  unfold Held.drainInto
  simp only
  split
  · exact hresent
  next hspace =>
    split
    · exact hresent
    next havailable =>
      split
      · exact hkept
      next hfull =>
        split
        · exact hkept
        have hlim := Nat.min_le_right maxInflightPerSession maxU16
        have hqueued : (held.pruneExpiredPublishes nowNs).session.queuedCount ≠ 0 := by
          intro hc
          apply havailable
          simp only [Session.afterResend, hc, Nat.min_zero]
        have hwin : ((held.pruneExpiredPublishes nowNs).session.resend nowNs
            receiveMaximum capacity).publishWindowUsed < receiveMaximum := by omega
        have hpacked := KeepsOrder.packed hinv hkeeps hqueued hspace hwin
        rw [← pruneExpired_inflight] at hpacked
        refine hresent.drainQueue hresentInv nowNs _
          (by simp only [Session.noteResent]; omega) (hpacked.congr ?_)
        exact resendLoop_map isPublish (fun _ => rfl) _ _ _ _ _ _

end Session

/-! ### Runs -/

namespace Store

/-- The calls of a session's life: everything but the rollback of an unsent PUBLISH. -/
def Op.isRetry : Op → Bool
  | .retryUnsentPublish _ _ => true
  | _ => false

/-- A call that drains a session keeps the order of its window. -/
def KeepsOrder (store : Store) : Op → Prop
  | .drainInto handle nowNs receiveMaximum _ _ =>
    ∀ session ∈ store.getSession handle, session.KeepsOrder nowNs receiveMaximum
  | _ => True

instance (store : Store) (op : Op) : Decidable (store.KeepsOrder op) :=
  match op with
  | .drainInto _ _ _ _ _ => inferInstanceAs (Decidable (∀ session ∈ _, _))
  | .openSession _ _ _ _ _ | .disconnect _ _ _ | .enqueuePublish _ _ _ _ _ _ _ _
  | .retryUnsentPublish _ _ | .handleAck _ _ _ _ | .dropOversizedPublish _ _ => isTrue trivial

lemma Changed.ordered {store : Store} {op : Op} {reply : Reply} {session session' : Session}
    (hchanged : Changed store op reply session session') (hop : op.isRetry = false)
    (hkeeps : store.KeepsOrder op) (hinv : session.Inv) (h : session.Ordered) :
    session'.Ordered := by
  cases hchanged with
  | resumed | offline => exact h.markInflight.frame rfl rfl rfl
  | roomMade maxQueued =>
    have hsame := Session.SameWindow.makeRoom session maxQueued
    exact h.frame hsame.inflight (by rw [hsame.history]) (by rw [hsame.history])
  | enqueued maxQueued hserial hqos =>
    have hsame := Session.SameWindow.makeRoom session maxQueued
    exact h.frame hsame.inflight (by simp only [Session.appendQueued, hsame.history])
      (by simp only [Session.appendQueued, hsame.history])
  | drained hses totalBytes =>
    exact Session.Ordered.drainInto h hinv _ (hkeeps session hses) _ _
  | retried totalBytes => cases hop
  | acknowledged totalBytes => exact Session.Ordered.handleAck h _ _ _
  | dropped totalBytes => exact Session.Ordered.dropOversizedPublish h _

lemma Started.ordered {session : Session} (h : Started session) : session.Ordered := by
  obtain ⟨generation, routeId, clientId, expiryInterval, bytes, rfl⟩ := h
  exact ⟨Pairwise.nil, Pairwise.nil, by intro n hn; simp at hn⟩

lemma exec_ordered (options : Options) (ops : List Op) (hops : ∀ op ∈ ops, op.isRetry = false)
    (hkeeps : ∀ e ∈ trace step { options := options } ops, e.pre.KeepsOrder e.input) :
    ∀ (index : Nat) (session : Session),
      (exec step { options := options } ops).sessions[index]? = some (some session) →
        session.Ordered := by
  have hinputs : ∀ e ∈ trace step { options := options } ops,
      e.input.isRetry = false ∧ e.pre.KeepsOrder e.input := by
    intro e he
    exact ⟨hops e.input (input_mem he), hkeeps e he⟩
  refine (trace_induction step (fun store op => op.isRetry = false ∧ store.KeepsOrder op)
    (fun _ store => Sound store ∧ ∀ (index : Nat) (session : Session),
      store.sessions[index]? = some (some session) → session.Ordered) ?_ ?_ ops hinputs).2
  · exact ⟨by intro index session h; simp at h, by intro index session h; simp at h⟩
  intro _ store op hboth hP
  obtain ⟨hsound, hord⟩ := hboth
  refine ⟨step_sound hsound op, ?_⟩
  intro index session' hses
  rcases step_follows store op index session' hses with ⟨hold, -⟩ | ⟨hnew, -⟩ |
    ⟨session, hold, hchanged, -⟩
  · exact hord index session' hold
  · exact hnew.ordered
  · exact hchanged.ordered hP.1 hP.2 (hsound index session hold) (hord index session hold)

end Store

/-! ### Drains that fail

What is sent again is marked before the rest of the drain is known to succeed. -/

namespace Session

/-- No slot has anything that a drain with this window would send again. -/
def NothingDue (session : Session) (receiveMaximum : Nat) : Prop :=
  ∀ inflight, some inflight ∈ session.inflight → inflight.needsSend = true →
    inflight.state ≠ .awaitPubcomp ∧ receiveMaximum ≤ session.countSentPublishInflight

lemma isPublish_transmissionForInflight (inflight : Inflight) (nowNs : Int) :
    (transmissionForInflight inflight nowNs).isPublish = true ↔ inflight.state ≠ .awaitPubcomp := by
  unfold transmissionForInflight
  cases inflight.state <;> simp [Transmission.isPublish]

/-- The first loop leaves the slots alone exactly if it sends nothing. -/
theorem resendLoop_slots_iff (nowNs : Int) (receiveMaximum : Nat) {capacity : Nat}
    (slots : List (Option Inflight)) (out : List Transmission) (used : Nat)
    (hroom : out.length ≠ capacity) :
    (resendLoop nowNs receiveMaximum capacity slots out used).slots = slots ↔
      ∀ inflight, some inflight ∈ slots → inflight.needsSend = true →
        inflight.state ≠ .awaitPubcomp ∧ receiveMaximum ≤ used := by
  induction slots with
  | nil => simp [resendLoop]
  | cons slot rest ih =>
    cases slot with
    | none => simp [resendLoop, hroom, ih]
    | some inflight =>
      have hpublish := isPublish_transmissionForInflight inflight nowNs
      unfold resendLoop
      simp only [if_neg hroom]
      split
      · next hskip =>
        rw [Bool.or_eq_true, Bool.and_eq_true, decide_eq_true_eq, hpublish] at hskip
        rw [cons_eq_cons, eq_self_iff_true, true_and, ih]
        constructor
        · intro h other hmem hneeds
          rcases mem_cons.mp hmem with heq | hmem
          · cases heq
            exact hskip.resolve_left (by simp [hneeds])
          · exact h other hmem hneeds
        · exact fun h other hmem => h other (mem_cons_of_mem _ hmem)
      next hsend =>
      rw [Bool.or_eq_true, Bool.not_eq_true', Bool.and_eq_true, decide_eq_true_eq, hpublish,
        not_or, Bool.not_eq_false] at hsend
      refine iff_of_false ?_ fun h => hsend.2 (h inflight mem_cons_self hsend.1)
      intro heq
      have hneeds := congrArg needsSend (Option.some.inj (cons.inj heq).1)
      rw [hsend.1] at hneeds
      cases hneeds

end Session

/-- What a failed drain leaves as it was: the marks, the queue, and all that follows. -/
structure Untouched (held held' : Held) : Prop where
  inflight : held'.session.inflight = held.session.inflight
  queued : held'.session.queued = held.session.queued
  following : ∀ maxInflight nowNs receiveMaximum capacity memory,
    held'.drainInto maxInflight nowNs receiveMaximum capacity memory =
      held.drainInto maxInflight nowNs receiveMaximum capacity memory

/-- **A drain that fails leaves everything but expired messages as it was** exactly if it had
nothing to send again. -/
theorem failed_drain_untouched_iff (options : Options) (ops : List Store.Op) (index : Nat)
    (session : Session) (hsession :
      (exec Store.step { options := options } ops).sessions[index]? = some (some session))
    {held' : Held} {totalBytes maxInflight receiveMaximum capacity : Nat} {nowNs : Int}
    {memory : Bool} {e : Error}
    (herror : (mk session totalBytes).drainInto maxInflight nowNs receiveMaximum capacity
      memory = (.error e, held')) :
    Untouched ((mk session totalBytes).pruneExpiredPublishes nowNs) held' ↔
      ((mk session totalBytes).pruneExpiredPublishes nowNs).session.NothingDue
        receiveMaximum := by
  have hinv : Session.Inv (mk session totalBytes).session :=
    Store.exec_sound options ops index session hsession
  generalize mk session totalBytes = held at *
  have hpruned := hinv.pruneExpired nowNs
  unfold drainInto at herror
  generalize held.pruneExpiredPublishes nowNs = pruned at *
  have hkept : Untouched pruned { pruned with
      session := pruned.session.afterResend (pruned.session.resend nowNs receiveMaximum capacity) } ↔
      (pruned.session.resend nowNs receiveMaximum capacity).slots = pruned.session.inflight := by
    constructor
    · intro h
      exact h.inflight
    intro hsame
    unfold Session.afterResend
    rw [hsame]
    exact ⟨rfl, rfl, fun _ _ _ _ _ => rfl⟩
  dsimp only at herror
  split at herror
  · cases herror
  next hspace =>
  have hroom : ([] : List Transmission).length ≠ capacity := by
    rintro rfl
    apply hspace
    unfold Session.resend
    rcases pruned.session.inflight with _ | ⟨_ | inflight, rest⟩ <;> simp [Session.resendLoop]
  have hslots := Session.resendLoop_slots_iff nowNs receiveMaximum pruned.session.inflight []
    pruned.session.countSentPublishInflight hroom
  split at herror
  · cases herror
  split at herror
  · cases herror
    exact hkept.trans hslots
  next hfull =>
  split at herror
  · cases herror
    exact hkept.trans hslots
  have hlimit := Nat.min_le_right maxInflight maxU16
  obtain ⟨⟨more, hmore⟩, -⟩ :=
    ((hpruned.afterResend nowNs receiveMaximum capacity).noteResent
      (pruned.session.resend nowNs receiveMaximum capacity).out).drainQueue nowNs
      (pruned.session.resend nowNs receiveMaximum capacity).out
      (Nat.le_trans (not_lt.mp hfull) hlimit)
  rw [hmore] at herror
  cases herror

/-- A message waits behind one that is released, in a store with one place for both. -/
def releaseAndWait : List Store.Op :=
  [.openSession [0x61] false 60 0 {},
    .enqueuePublish ⟨0, 1⟩ [0x74] [0x31] .exactlyOnce false [] 0 {},
    .enqueuePublish ⟨0, 1⟩ [0x74] [0x32] .atLeastOnce false [] 0 {},
    .drainInto ⟨0, 1⟩ 0 1 4 {},
    .handleAck ⟨0, 1⟩ .pubrec 1 0]

lemma releaseAndWait_marks :
    ∃ session held',
      (exec Store.step { options := { maxInflightPerSession := 1 } } releaseAndWait).sessions[0]? =
        some (some session) ∧
      (mk session 0).drainInto 1 0 1 4 true = (.error .inflightFull, held') ∧
      ((mk session 0).pruneExpiredPublishes 0).session.inflight.map
        (Option.map needsSend) = [some true] ∧
      held'.session.inflight.map (Option.map needsSend) = [some false] := by
  have hmarks : ((exec Store.step { options := { maxInflightPerSession := 1 } }
      releaseAndWait).sessions[0]?.join.map fun session =>
        let drained := (mk session 0).drainInto 1 0 1 4 true
        (drained.1, ((mk session 0).pruneExpiredPublishes 0).session.inflight.map
          (Option.map needsSend),
          drained.2.session.inflight.map (Option.map needsSend))) =
      some (.error .inflightFull, [some true], [some false]) := by
    decide +kernel
  obtain ⟨session, hjoin, hvalues⟩ := Option.map_eq_some_iff.mp hmarks
  rcases hdrain : (mk session 0).drainInto 1 0 1 4 true with ⟨result, held'⟩
  rw [hdrain] at hvalues
  obtain ⟨hres, hrest⟩ := Prod.mk.inj hvalues
  obtain ⟨hpre, hafter⟩ := Prod.mk.inj hrest
  exact ⟨session, held', Store.sessionAt_eq_some hjoin, by rw [hdrain, ← hres], hpre, hafter⟩

/-- The drain that fails for the second message marks the PUBREL of the first as sent. -/
theorem failed_drain_touches :
    ∃ session held',
      (exec Store.step { options := { maxInflightPerSession := 1 } } releaseAndWait).sessions[0]? =
        some (some session) ∧
      (mk session 0).drainInto 1 0 1 4 true = (.error .inflightFull, held') ∧
      ¬ Untouched ((mk session 0).pruneExpiredPublishes 0) held' := by
  obtain ⟨session, held', hsession, hdrain, hbefore, hafter⟩ := releaseAndWait_marks
  refine ⟨session, held', hsession, hdrain, ?_⟩
  intro h
  have hsame := congrArg (map (Option.map needsSend)) h.inflight
  exact absurd (hafter.symm.trans (hsame.trans hbefore)) (by decide)

theorem failed_drain_untouched_iff_release :
    ∃ session held',
      (exec Store.step { options := { maxInflightPerSession := 1 } } releaseAndWait).sessions[0]? =
        some (some session) ∧
      (mk session 0).drainInto 1 0 1 4 true = (.error .inflightFull, held') ∧
      (Untouched ((mk session 0).pruneExpiredPublishes 0) held' ↔
        ((mk session 0).pruneExpiredPublishes 0).session.NothingDue 1) := by
  obtain ⟨session, held', hsession, hdrain, -⟩ := releaseAndWait_marks
  exact ⟨session, held', hsession, hdrain,
    failed_drain_untouched_iff _ releaseAndWait 0 session hsession hdrain⟩

end Netz.Mqtt
