/-
The order of the window.

`drainInto` sends marked messages again in slot order, while a first transmission takes the
first vacant slot.  `Ordered` says that slots are in the order of first transmission and that
what has been sent again follows them; every operation of a session keeps it, as long as no
message is put into a slot in front of an older one.
-/
import Mathlib.Data.List.Sort
import Netz.Proofs.SessionStore

namespace Netz.Mqtt

open Lib Inflight List

/-- Its PUBLISH is not acknowledged yet. -/
def Inflight.isPublish (inflight : Inflight) : Bool := inflight.state != .awaitPubcomp

/-- Its PUBLISH is to be sent again. -/
def Inflight.isPending (inflight : Inflight) : Bool := inflight.isPublish && inflight.needsSend

namespace Session

/-- The serials of the unacknowledged PUBLISH packets, in slot order. -/
def publishing (slots : List (Option Inflight)) : List Nat :=
  (slots.reduceOption.filter isPublish).map (·.publish.serial)

/-- Those of them that are to be sent again. -/
def pending (slots : List (Option Inflight)) : List Nat :=
  (slots.reduceOption.filter isPending).map (·.publish.serial)

/-- Slots are in the order of first transmission, and what is sent again follows them. -/
structure Ordered (session : Session) : Prop where
  slots : (publishing session.inflight).Pairwise (· < ·)
  again : (session.history.resent ++ pending session.inflight).Pairwise (· < ·)
  known : ∀ n ∈ session.history.resent, n ∈ session.history.departed.map (·.serial)

variable {session session' : Session} {inflight : Inflight} {held : Held} {publish : OwnedPublish}

lemma Ordered.shrink (h : Ordered session)
    (hpub : (publishing session'.inflight).Sublist (publishing session.inflight))
    (hpend : (pending session'.inflight).Sublist (pending session.inflight))
    (hresent : session'.history.resent = session.history.resent)
    (hdep : session'.history.departed = session.history.departed) : Ordered session' where
  slots := h.slots.sublist hpub
  again := by
    rw [hresent]
    exact h.again.sublist (Sublist.append (Sublist.refl _) hpend)
  known := by
    rw [hresent, hdep]
    exact h.known

lemma Ordered.frame (h : Ordered session) (hinflight : session'.inflight = session.inflight)
    (hresent : session'.history.resent = session.history.resent)
    (hdep : session'.history.departed = session.history.departed) : Ordered session' :=
  h.shrink (by rw [hinflight]) (by rw [hinflight]) hresent hdep

/-! ### Messages that leave the window -/

lemma Ordered.remove {held : Held} (h : Ordered held.session) (index : Nat)
    (inflight : Inflight) (fate : Fate) :
    Ordered (held.removeInflight index inflight fate).session :=
  h.shrink (((reduceOption_set_none_sublist _ _).filter _).map _)
    (((reduceOption_set_none_sublist _ _).filter _).map _) rfl rfl

lemma Ordered.pruneExpired {held : Held} (h : Ordered held.session) (nowNs : Int) :
    Ordered (held.pruneExpiredPublishes nowNs).session := by
  have hfold : ∀ (indices : List Nat) (held : Held), Ordered held.session →
      Ordered (indices.foldl (Held.pruneSlot nowNs) held).session := by
    intro indices
    induction indices with
    | nil => intro held h; exact h
    | cons index rest ih =>
      intro held h
      apply ih
      unfold Held.pruneSlot
      split
      · split
        · exact h
        · exact h.remove _ _ _
      · exact h
  apply hfold
  have hsame := SameWindow.advance (held.pruneQueued nowNs).session
  exact h.frame hsame.inflight (by simp only [hsame.history]; rfl) (by simp only [hsame.history]; rfl)

lemma Ordered.release (h : Ordered session) (index : Nat)
    (hreleased : inflight.isPublish = false) : Ordered (session.setInflight index inflight) :=
  h.shrink ((filter_set_some_sublist hreleased _ _).map _)
    ((filter_set_some_sublist (by simp [isPending, hreleased]) _ _).map _) rfl rfl

lemma Ordered.handleAck (h : Ordered held.session) (packetType : PacketType)
    (packetId reasonCode : Nat) :
    Ordered (held.handleAck packetType packetId reasonCode).2.session := by
  unfold Held.handleAck
  split
  · exact h
  split
  · unfold Held.acknowledge
    split
    · split
      · exact h.remove _ _ _
      · exact h
    · split
      · split
        · exact h.remove _ _ _
        · exact h.release _ rfl
      · exact h
    · split
      · exact h.remove _ _ _
      · exact h
    · exact h
  · exact h

lemma Ordered.dropOversizedPublish (h : Ordered held.session) (packetId : Nat) :
    Ordered (held.dropOversizedPublish packetId).2.session := by
  unfold Held.dropOversizedPublish
  split
  · exact h
  split
  · split
    · exact h
    · exact h.remove _ _ _
  · exact h

/-! ### Marking -/

/-- After a disconnect or a reconnect everything unacknowledged is to be sent again, and
nothing has been. -/
theorem Ordered.markInflight (h : Ordered session) : Ordered session.markInflight := by
  have hreduce : session.markInflight.inflight.reduceOption
      = session.inflight.reduceOption.map markForRetransmission := by simp [Session.markInflight]
  have hpub : publishing session.markInflight.inflight = publishing session.inflight := by
    unfold publishing
    rw [hreduce, filter_map, map_map]
    rfl
  have hpend : pending session.markInflight.inflight = publishing session.inflight := by
    have hmarked : isPending ∘ markForRetransmission = isPublish := by
      funext inflight
      simp [isPending, isPublish, markForRetransmission]
    unfold pending publishing
    rw [hreduce, filter_map, hmarked, map_map]
    rfl
  refine ⟨by rw [hpub]; exact h.slots, ?_, ?_⟩
  · rw [hpend]
    simpa [Session.markInflight] using h.slots
  · simp [Session.markInflight]

/-! ### Sending again -/

@[simp] lemma transmissionForInflight_isPublish (inflight : Inflight) (nowNs : Int) :
    (transmissionForInflight inflight nowNs).isPublish = inflight.isPublish := by
  unfold transmissionForInflight isPublish
  cases inflight.state <;> rfl

lemma transmissionForInflight_serial? (inflight : Inflight) (nowNs : Int) :
    (transmissionForInflight inflight nowNs).serial?
      = if inflight.isPublish then some inflight.publish.serial else none := by
  unfold transmissionForInflight isPublish
  cases inflight.state <;> rfl

lemma pending_cons_none (rest : List (Option Inflight)) :
    pending (none :: rest) = pending rest := by simp [pending]

lemma pending_cons_some (inflight : Inflight) (rest : List (Option Inflight)) :
    pending (some inflight :: rest)
      = if inflight.isPending then inflight.publish.serial :: pending rest else pending rest := by
  unfold pending
  rw [reduceOption_cons_of_some, filter_cons]
  split <;> rfl

/-- The first loop takes the PUBLISH packets it sends off the front of the pending ones, and
none when the window is used up. -/
theorem resendLoop_taken (nowNs : Int) (receiveMaximum capacity : Nat) :
    ∀ (slots : List (Option Inflight)) (out : List Transmission) (used : Nat),
      ∃ taken,
        (resendLoop nowNs receiveMaximum capacity slots out used).out.filterMap
            Transmission.serial? = out.filterMap Transmission.serial? ++ taken ∧
        pending slots
          = taken ++ pending (resendLoop nowNs receiveMaximum capacity slots out used).slots ∧
        (receiveMaximum ≤ used → taken = []) := by
  intro slots
  induction slots with
  | nil => intro out used; exact ⟨[], by simp [resendLoop], by simp [resendLoop], fun _ => rfl⟩
  | cons slot rest ih =>
    intro out used
    cases slot with
    | none =>
      unfold resendLoop
      split
      · exact ⟨[], by simp, by simp, fun _ => rfl⟩
      · obtain ⟨taken, hout, hpend, hnone⟩ := ih out used
        exact ⟨taken, hout, hpend, hnone⟩
    | some inflight =>
      unfold resendLoop
      simp only [transmissionForInflight_isPublish]
      split
      · exact ⟨[], by simp, by simp, fun _ => rfl⟩
      split
      · next hskip =>
          obtain ⟨taken, hout, hpend, hnone⟩ := ih out used
          simp only [pending_cons_some]
          by_cases hp : inflight.isPending = true
          · -- A pending PUBLISH is passed over only when the window is used up.
            have hused : receiveMaximum ≤ used := by
              simp only [isPending, Bool.and_eq_true] at hp
              simpa [hp.1, hp.2] using hskip
            rw [hnone hused] at hpend hout
            refine ⟨[], hout, ?_, fun _ => rfl⟩
            rw [if_pos hp, if_pos hp, hpend]
            rfl
          · rw [if_neg hp, if_neg hp]
            exact ⟨taken, hout, hpend, hnone⟩
      next hsend =>
        simp only [Bool.or_eq_true, Bool.not_eq_true', Bool.and_eq_true,
          decide_eq_true_eq, not_or, not_and] at hsend
        obtain ⟨hneeds, hroom⟩ := hsend
        simp only [pending_cons_some, isPending, hneeds]
        by_cases hpub : inflight.isPublish = true
        · obtain ⟨taken, hout, hpend, -⟩ := ih
            (out ++ [transmissionForInflight inflight nowNs]) (used + 1)
          refine ⟨inflight.publish.serial :: taken, ?_, ?_, fun hc => absurd hc (hroom hpub)⟩
          · simp [hpub, hout, transmissionForInflight_serial?]
          · simp [hpub, hpend]
        obtain ⟨taken, hout, hpend, hnone⟩ := ih
          (out ++ [transmissionForInflight inflight nowNs]) used
        simp only [hpub, Bool.and_false]
        refine ⟨taken, ?_, hpend, hnone⟩
        simp [hout, transmissionForInflight_serial?, hpub]

/-- Unless it fills the output, the first loop leaves no pending PUBLISH that the window has
room for. -/
theorem resendLoop_used (nowNs : Int) (receiveMaximum capacity : Nat) :
    ∀ (slots : List (Option Inflight)) (out : List Transmission) (used : Nat),
      (resendLoop nowNs receiveMaximum capacity slots out used).out.length ≠ capacity →
      min receiveMaximum (used + (pending slots).length)
        ≤ (resendLoop nowNs receiveMaximum capacity slots out used).publishWindowUsed := by
  intro slots
  induction slots with
  | nil => intro out used _; simp [resendLoop, pending]
  | cons slot rest ih =>
    intro out used
    cases slot with
    | none =>
      unfold resendLoop
      split
      · next hfull => exact fun hc => absurd hfull hc
      · rw [pending_cons_none]
        exact ih out used
    | some inflight =>
      unfold resendLoop
      simp only [transmissionForInflight_isPublish, pending_cons_some]
      split
      · next hfull => exact fun hc => absurd hfull hc
      split
      · next hskip =>
          intro hout
          have hrest := ih out used hout
          by_cases hp : inflight.isPending = true
          · have hused : receiveMaximum ≤ used := by
              simp only [isPending, Bool.and_eq_true] at hp
              simpa [hp.1, hp.2] using hskip
            simp only
            omega
          · simp [hp, hrest]
      next hsend =>
        intro hout
        have hrest := ih _ _ hout
        refine Nat.le_trans ?_ hrest
        unfold isPending
        by_cases hpub : inflight.isPublish = true
        · simp only [hpub, if_true]
          split
          · rw [length_cons]
            omega
          · omega
        · simp [hpub]

lemma publishing_congr {slots slots' : List (Option Inflight)}
    (h : slots'.map (Option.map fun f => (f.isPublish, f.publish.serial))
      = slots.map (Option.map fun f => (f.isPublish, f.publish.serial))) :
    publishing slots' = publishing slots := by
  have hread : ∀ slots : List (Option Inflight), publishing slots
      = ((slots.map (Option.map fun f => (f.isPublish, f.publish.serial))).reduceOption.filter
          (·.1)).map (·.2) := by
    intro slots
    rw [reduceOption_map, filter_map, map_map]
    rfl
  rw [hread, hread, h]

lemma publishing_resend (session : Session) (nowNs : Int) (receiveMaximum capacity : Nat) :
    publishing (session.resend nowNs receiveMaximum capacity).slots = publishing session.inflight :=
  publishing_congr (resendLoop_map _ (fun _ => rfl) _ _ _ _ _ _)

lemma BooksOk.departed_of_flying (h : BooksOk session)
    (hmem : publish ∈ session.messages.reduceOption) : publish ∈ session.history.departed := by
  have hnodup : (session.waiting ++ session.messages.reduceOption
      ++ session.history.finished.map (·.1)).Nodup := by
    rw [h.balanced.once.nodup_iff]
    apply Nodup.of_map (·.serial)
    rw [h.serials]
    exact nodup_range
  have hacc : publish ∈ session.history.accepted :=
    h.balanced.once.subset (by simp [hmem])
  rw [nodup_append, nodup_append] at hnodup
  obtain ⟨⟨-, -, hwaiting⟩, -, hfinished⟩ := hnodup
  rcases h.balanced.skipped publish hacc with hw | hd | hf
  · exact absurd rfl (hwaiting publish hw publish hmem)
  · exact hd
  have hdone : publish ∈ session.history.finished.map (·.1) :=
    mem_map.mpr ⟨_, hf, rfl⟩
  exact absurd rfl (hfinished publish (by simp [hmem]) publish hdone)

lemma BooksOk.departed_lt_waiting (h : BooksOk session) :
    ∀ old ∈ session.history.departed, ∀ new ∈ session.waiting, old.serial < new.serial := by
  have hsorted : ((session.history.departed ++ session.waiting).map (·.serial)).Pairwise (· < ·) := by
    apply Pairwise.sublist (h.balanced.ordered.map (·.serial))
    rw [h.serials]
    exact pairwise_lt_range
  rw [map_append, pairwise_append] at hsorted
  intro old hold new hnew
  exact hsorted.2.2 _ (mem_map_of_mem hold) _ (mem_map_of_mem hnew)

lemma BooksOk.departed_sorted (h : BooksOk session) :
    (session.history.departed.map (·.serial)).Pairwise (· < ·) := by
  have hsub := ((sublist_append_left _ _).trans h.balanced.ordered).map (·.serial)
  apply Pairwise.sublist hsub
  rw [h.serials]
  exact pairwise_lt_range

lemma BooksOk.publishing_departed (h : BooksOk session) {n : Nat}
    (hn : n ∈ publishing session.inflight) : n ∈ session.history.departed.map (·.serial) := by
  obtain ⟨inflight, hmem, rfl⟩ := mem_map.mp hn
  have hflying : inflight.publish ∈ session.messages.reduceOption := by
    unfold messages
    rw [reduceOption_map]
    exact mem_map_of_mem (mem_filter.mp hmem).1
  exact mem_map_of_mem (h.departed_of_flying hflying)

lemma pending_subset (slots : List (Option Inflight)) : pending slots ⊆ publishing slots := by
  intro n hn
  obtain ⟨inflight, hmem, rfl⟩ := mem_map.mp hn
  obtain ⟨hin, hp⟩ := mem_filter.mp hmem
  simp only [isPending, Bool.and_eq_true] at hp
  exact mem_map.mpr ⟨inflight, mem_filter.mpr ⟨hin, hp.1⟩, rfl⟩

lemma Ordered.afterResend (h : Ordered session) (nowNs : Int) (receiveMaximum capacity : Nat) :
    Ordered (session.afterResend (session.resend nowNs receiveMaximum capacity)) := by
  obtain ⟨taken, -, hpend, -⟩ := resendLoop_taken nowNs receiveMaximum capacity
    session.inflight [] session.countSentPublishInflight
  have hpub := publishing_resend session nowNs receiveMaximum capacity
  refine h.shrink (by simp only [Session.afterResend, hpub, Sublist.refl]) ?_ rfl rfl
  rw [hpend]
  exact sublist_append_right _ _

/-- **What is sent again comes in the order of the slots.** -/
theorem Ordered.noteResent (h : Ordered session) (hbooks : BooksOk session) (nowNs : Int)
    (receiveMaximum capacity : Nat) :
    Ordered ((session.afterResend (session.resend nowNs receiveMaximum capacity)).noteResent
      (session.resend nowNs receiveMaximum capacity).out) := by
  obtain ⟨taken, hout, hpend, -⟩ := resendLoop_taken nowNs receiveMaximum capacity
    session.inflight [] session.countSentPublishInflight
  have hserials : (session.resend nowNs receiveMaximum capacity).out.filterMap
      Transmission.serial? = taken := by
    simpa [Session.resend] using hout
  refine ⟨(h.afterResend nowNs receiveMaximum capacity).slots, ?_, ?_⟩
  · have hagain := h.again
    rw [hpend, ← append_assoc] at hagain
    simp only [Session.noteResent, hserials]
    exact hagain
  intro n hn
  simp only [Session.noteResent, hserials, mem_append] at hn
  rcases hn with hold | hnew
  · exact h.known n hold
  apply hbooks.publishing_departed
  apply pending_subset
  rw [hpend]
  exact mem_append_left _ hnew

/-! ### First transmissions -/

lemma Ordered.move (h : Ordered session) (hinv : Inv session) {index next : Nat}
    (hslot : session.queued[index]? = some (some publish)) (hfresh : Fresh session publish inflight)
    (hpacked : Packed isPublish session.inflight) :
    Ordered (session.moved index next inflight) := by
  obtain ⟨rfl, -, -, hsent, hunreleased⟩ := hfresh
  have hpub : inflight.isPublish = true := by simpa [isPublish] using hunreleased
  have hpend : inflight.isPending = false := by simp [isPending, hsent]
  have hpublishing : publishing (session.moved index next inflight).inflight
      = publishing session.inflight ++ [inflight.publish.serial] := by
    unfold publishing
    simp only [moved, addInflight, appendOrReuseAssumeCapacity]
    rw [hpacked.filter_insertSlot hpub, map_append]
    rfl
  have hpending : pending (session.moved index next inflight).inflight
      = pending session.inflight := by
    unfold pending
    simp [moved, addInflight, appendOrReuseAssumeCapacity, filter_insertSlot_of_neg hpend]
  have hwaiting : inflight.publish ∈ session.waiting :=
    reduceOption_mem_iff.mpr (mem_of_getElem? hslot)
  refine ⟨?_, by rw [hpending]; exact h.again, ?_⟩
  · rw [hpublishing, pairwise_append]
    refine ⟨h.slots, pairwise_singleton _ _, ?_⟩
    intro n hn m hm
    rw [mem_singleton] at hm
    subst hm
    obtain ⟨old, hold, rfl⟩ := mem_map.mp (hinv.books.publishing_departed hn)
    exact hinv.books.departed_lt_waiting old hold _ hwaiting
  intro n hn
  have := h.known n hn
  simp only [moved, addInflight, map_append, mem_append]
  exact .inl this

lemma Ordered.drainQueue (h : Ordered session) (hinv : Inv session) (nowNs : Int)
    (out : List Transmission) {available : Nat} (hroom : session.inflightCount + available ≤ maxU16)
    (hpacked : Packed isPublish session.inflight) :
    Ordered (session.drainQueue nowNs out available).2 := by
  obtain ⟨loop, hloop, -, hord, -⟩ := drainLoop_induction nowNs
    (fun loop => LoopOk loop ∧ Ordered loop.session ∧
      Packed isPublish loop.session.inflight)
    (fun loop hP hslot => ⟨hP.1.skip hslot, hP.2⟩) (fun loop publish hP havailable hslot => by
      obtain ⟨hok, hord, hpacked⟩ := hP
      have hlt : loop.session.inflightCount < maxU16 := by
        have := hok.room
        omega
      obtain ⟨inflight, next, hfresh, hnext, hmoved⟩ := moveQueued_ok hok.inv hslot hlt nowNs
      exact ⟨_, _, hmoved, hok.move havailable hslot hfresh hnext _,
        hord.move hok.inv hslot hfresh hpacked, hpacked.insertSlot inflight⟩)
    session.queued.length
    { session := session, out := out, available := available, queueIndex := session.queuedHead }
    ⟨⟨hinv, hinv.queue.head, hinv.queue.front, hroom⟩, h, hpacked⟩
  unfold Session.drainQueue
  rw [hloop]
  have hsame := SameWindow.advance { loop.session with queuedHead := loop.queueIndex }
  exact hord.frame hsame.inflight (by simp only [hsame.history]) (by simp only [hsame.history])

end Session

end Netz.Mqtt
