/-
What the connection charges for received data.

The log of a run lists its accepted STREAM and RESET_STREAM frames, newest first.  From the
log alone one can say which offsets of a stream have arrived and which final size a reset
announced, and so what the stream should cost: its final size once it has been reset, the
number of offsets that have arrived before that.

The code keeps no record of what a reset was charged.  A frame for a stream that has been
reset is charged as if it had not been, and `recharged` sums up what that adds.  The total is
right exactly when no frame of the log recharges.
-/
import Mathlib.Algebra.BigOperators.Group.Finset.Basic
import Netz.Proofs.StreamCalls

namespace Netz.Quic

open Lib List RecvState

/-- The two frames that are charged. -/
inductive DataFrame where
  | stream (frame : StreamFrame)
  | reset (frame : ResetStreamFrame)
deriving DecidableEq

namespace DataFrame

def streamId : DataFrame → Nat
  | .stream frame => frame.streamId
  | .reset frame => frame.streamId

/-- The final size a frame announces. -/
def finalSize : DataFrame → Option Nat
  | .stream frame => if frame.fin then some (frame.offset + frame.data.length) else none
  | .reset frame => some frame.finalSize

end DataFrame

/-- The offsets of a stream that the frames of a log have brought. -/
def arrived : List DataFrame → Nat → Finset Nat
  | [], _ => ∅
  | .stream frame :: older, id =>
    if frame.streamId = id then arrived older id ∪ span frame else arrived older id
  | .reset _ :: older, id => arrived older id

/-- The final size that a RESET_STREAM of the log announced. -/
def resetSize : List DataFrame → Nat → Option Nat
  | [], _ => none
  | .stream _ :: older, id => resetSize older id
  | .reset frame :: older, id =>
    if frame.streamId = id then some frame.finalSize else resetSize older id

/-- What a stream should have been charged. -/
def charged (log : List DataFrame) (id : Nat) : Nat :=
  (resetSize log id).getD (arrived log id).card

def streamIds (log : List DataFrame) : Finset Nat := (log.map DataFrame.streamId).toFinset

/-- The frame takes credit for a stream whose final size has been charged. -/
def Recharges (older : List DataFrame) : DataFrame → Prop
  | .stream frame =>
    resetSize older frame.streamId ≠ none ∧ ¬ span frame ⊆ arrived older frame.streamId
  | .reset frame =>
    resetSize older frame.streamId ≠ none ∧ (arrived older frame.streamId).card < frame.finalSize

instance (older : List DataFrame) : (frame : DataFrame) → Decidable (Recharges older frame)
  | .stream _ => inferInstanceAs (Decidable (_ ∧ _))
  | .reset _ => inferInstanceAs (Decidable (_ ∧ _))

def NeverRecharges : List DataFrame → Prop
  | [] => True
  | frame :: older => NeverRecharges older ∧ ¬ Recharges older frame

/-- How much more than it should the connection is charged for a frame. -/
def recharge (older : List DataFrame) : DataFrame → Nat
  | .stream frame =>
    if resetSize older frame.streamId = none then 0
    else (span frame \ arrived older frame.streamId).card
  | .reset frame =>
    if resetSize older frame.streamId = none then 0
    else frame.finalSize - (arrived older frame.streamId).card

def recharged : List DataFrame → Nat
  | [] => 0
  | frame :: older => recharged older + recharge older frame

variable {older : List DataFrame} {frame : DataFrame} {id : Nat}

lemma recharge_open (h : resetSize older frame.streamId = none) : recharge older frame = 0 := by
  cases frame with
  | stream | reset => exact if_pos h

lemma recharge_eq_zero_iff (older : List DataFrame) (frame : DataFrame) :
    recharge older frame = 0 ↔ ¬ Recharges older frame := by
  cases frame with
  | stream frame =>
    simp [recharge, Recharges]
  | reset frame =>
    unfold recharge Recharges
    by_cases hnone : resetSize older frame.streamId = none
    · simp [hnone]
    · simp only [hnone, if_false, ne_eq, not_false_eq_true, true_and]
      omega

lemma recharged_eq_zero_iff (log : List DataFrame) : recharged log = 0 ↔ NeverRecharges log := by
  induction log with
  | nil => simp [recharged, NeverRecharges]
  | cons frame older ih =>
    unfold recharged NeverRecharges
    rw [Nat.add_eq_zero_iff, ih, recharge_eq_zero_iff]

/-! ### The log of one stream -/

lemma arrived_ne (h : frame.streamId ≠ id) : arrived (frame :: older) id = arrived older id := by
  cases frame with
  | stream frame => exact if_neg h
  | reset frame => rfl

lemma resetSize_ne (h : frame.streamId ≠ id) :
    resetSize (frame :: older) id = resetSize older id := by
  cases frame with
  | stream frame => rfl
  | reset frame => exact if_neg h

variable {log : List DataFrame}

lemma unlogged (h : ∀ frame ∈ log, frame.streamId ≠ id) :
    arrived log id = ∅ ∧ resetSize log id = none := by
  induction log with
  | nil => exact ⟨rfl, rfl⟩
  | cons frame older ih =>
    obtain ⟨h₁, h₂⟩ := ih (fun f hf => h f (mem_cons_of_mem _ hf))
    have hne := h frame mem_cons_self
    rw [arrived_ne hne, resetSize_ne hne]
    exact ⟨h₁, h₂⟩

lemma span_subset_arrived {frame : StreamFrame}
    (h : DataFrame.stream frame ∈ log) : span frame ⊆ arrived log frame.streamId := by
  induction log with
  | nil => simp at h
  | cons first older ih =>
    rw [mem_cons] at h
    by_cases hsame : DataFrame.stream frame = first
    · simp [← hsame, show arrived (.stream frame :: older) frame.streamId = _ from if_pos rfl]
    have hrest := ih (h.resolve_left hsame)
    cases first with
    | reset reset => exact hrest
    | stream other =>
      unfold arrived
      by_cases hid : other.streamId = frame.streamId
      · rw [if_pos hid]
        exact hrest.trans Finset.subset_union_left
      · simp [hid, hrest]

lemma resetSize_ne_none {reset : ResetStreamFrame}
    (h : DataFrame.reset reset ∈ log) : resetSize log reset.streamId ≠ none := by
  induction log with
  | nil => simp at h
  | cons first older ih =>
    rw [mem_cons] at h
    by_cases hsame : DataFrame.reset reset = first
    · rw [← hsame, show resetSize (.reset reset :: older) reset.streamId = _ from if_pos rfl]
      simp
    have hrest := ih (h.resolve_left hsame)
    cases first with
    | stream frame => exact hrest
    | reset other =>
      unfold resetSize
      by_cases hid : other.streamId = reset.streamId
      · simp [hid]
      · simp [hid, hrest]

lemma charged_unlogged (h : id ∉ streamIds log) : charged log id = 0 := by
  have hnot : ∀ frame ∈ log, frame.streamId ≠ id := by
    intro frame hframe hc
    apply h
    unfold streamIds
    rw [mem_toFinset, mem_map]
    exact ⟨frame, hframe, hc⟩
  obtain ⟨h₁, h₂⟩ := unlogged hnot
  unfold charged
  rw [h₁, h₂]
  rfl

lemma sum_charged_cons {extra : Nat}
    (h : charged (frame :: older) frame.streamId = charged older frame.streamId + extra) :
    ∑ id ∈ streamIds (frame :: older), charged (frame :: older) id
      = ∑ id ∈ streamIds older, charged older id + extra := by
  have hids : streamIds (frame :: older) = insert frame.streamId (streamIds older) := by
    unfold streamIds
    rw [map_cons, toFinset_cons]
  have hothers : ∑ id ∈ (streamIds older).erase frame.streamId, charged (frame :: older) id
      = ∑ id ∈ (streamIds older).erase frame.streamId, charged older id := by
    apply Finset.sum_congr rfl
    intro id hid
    have hne := Ne.symm (Finset.ne_of_mem_erase hid)
    unfold charged
    rw [arrived_ne hne, resetSize_ne hne]
  have hold : ∑ id ∈ streamIds older, charged older id
      = charged older frame.streamId
        + ∑ id ∈ (streamIds older).erase frame.streamId, charged older id := by
    by_cases hin : frame.streamId ∈ streamIds older
    · rw [Finset.add_sum_erase _ _ hin]
    · rw [Finset.erase_eq_of_notMem hin, charged_unlogged hin, Nat.zero_add]
  rw [hids, ← Finset.insert_erase (Finset.mem_insert_self frame.streamId (streamIds older)),
    Finset.sum_insert (Finset.notMem_erase _ _), Finset.erase_insert_eq_erase, h]
  omega

/-! ### The table accounts for the log -/

namespace StreamTable

/-- The entry of its stream remembers the frame. -/
def Seen (t : StreamTable) (frame : DataFrame) : Prop :=
  ∃ entry, t.findRecvStreamEntry frame.streamId = some entry ∧
    (∀ size, frame.finalSize = some size → entry.finalSize = some size) ∧
    match frame with
    | .stream f =>
      f.offset + f.data.length ≤ entry.highestReceivedEnd ∧
        f.offset + f.data.length ≤ entry.flow.limit
    | .reset r => r.finalSize ≤ entry.flow.limit

structure Accounts (log : List DataFrame) (t : StreamTable) : Prop where
  entries : ∀ id entry, t.findRecvStreamEntry id = some entry →
    EntryWF (arrived log id) entry ∧ entry.reset.map (·.finalSize) = resetSize log id
  seen : ∀ frame ∈ log, Seen t frame
  total : t.recvDataTotal = ∑ id ∈ streamIds log, charged log id + recharged log

namespace Accounts

variable {log : List DataFrame} {t t' : StreamTable}

lemma absent (h : Accounts log t) {id : Nat} (hnone : t.findRecvStreamEntry id = none) :
    arrived log id = ∅ ∧ resetSize log id = none := by
  apply unlogged
  intro frame hframe hc
  obtain ⟨entry, hent, -⟩ := h.seen frame hframe
  simp [hc, hnone] at hent

lemma opened (h : Accounts log t) {id : Nat} {old : StreamRecvFlowEntry} (ho : Opened t id old) :
    EntryWF (arrived log id) old ∧ old.reset.map (·.finalSize) = resetSize log id := by
  rcases ho with hold | ⟨hnone, hfresh⟩
  · exact h.entries id old hold
  obtain ⟨h₁, h₂⟩ := h.absent hnone
  rw [h₁, h₂, hfresh.reset]
  exact ⟨hfresh.wf, rfl⟩

lemma kept (h : Accounts log t) (hk : Kept t t') : Accounts log t' := by
  refine ⟨?_, ?_, hk.total.trans h.total⟩
  · intro id e' he'
    cases hold : t.findRecvStreamEntry id with
    | none =>
      have hnew := hk.new id e' hold he'
      obtain ⟨h₁, h₂⟩ := h.absent hold
      rw [h₁, h₂, hnew.reset]
      exact ⟨hnew.wf, rfl⟩
    | some e =>
      obtain ⟨hwf, hreset⟩ := h.entries id e hold
      obtain ⟨e₂, he₂, hs⟩ := hk.old id e hold
      rw [he', Option.some.injEq] at he₂
      subst he₂
      exact ⟨hs.wf _ hwf, by rw [hs.reset]; exact hreset⟩
  intro frame hframe
  obtain ⟨e, he, hfinal, hbounds⟩ := h.seen frame hframe
  obtain ⟨e', he', hs⟩ := hk.old _ e he
  refine ⟨e', he', fun size hsize => by rw [hs.final]; exact hfinal size hsize, ?_⟩
  have hlim := hs.limit
  cases frame with
  | stream f =>
    rw [hs.high]
    omega
  | reset r => omega

/-- What earlier frames left behind stays when the entry only grows. -/
theorem seen_step (h : Accounts log t) {id : Nat} {old new : StreamRecvFlowEntry}
    (ho : Opened t id old) (hbeside : Beside id t t') (hfind : t'.findRecvStreamEntry id = some new)
    (hfinal : ∀ size, old.finalSize = some size → new.finalSize = some size)
    (hhigh : old.highestReceivedEnd ≤ new.highestReceivedEnd)
    (hlim : new.flow.limit = old.flow.limit) : ∀ frame ∈ log, Seen t' frame := by
  intro frame hframe
  obtain ⟨e, he, hsize, hbounds⟩ := h.seen frame hframe
  by_cases hid : frame.streamId = id
  · have heq : e = old := by
      rcases ho with hold | ⟨hnone, -⟩
      · rw [hid, hold, Option.some.injEq] at he
        exact he.symm
      · simp [hid, hnone] at he
    subst heq
    refine ⟨new, by rw [hid]; exact hfind, fun size hs => hfinal size (hsize size hs), ?_⟩
    cases frame with
    | stream | reset => omega
  · exact ⟨e, by rw [hbeside.others _ hid]; exact he, hsize, hbounds⟩

/-- **An accepted STREAM frame.** -/
theorem receiveStream (h : Accounts log t) {frame : StreamFrame}
    (hok : t.receiveStream frame = (.ok (), t')) : Accounts (.stream frame :: log) t' := by
  obtain ⟨old, flow, newly, recvState, ho, hhigh, hknown, hle, hlim, hins, hfind, hbeside, htotal⟩ :=
    receiveStream_ok hok
  obtain ⟨hwf, hreset⟩ := h.opened ho
  obtain ⟨-, hnewly⟩ := insertTracked_tracks hwf.tracks hins
  have harrived : arrived (.stream frame :: log) frame.streamId
      = arrived log frame.streamId ∪ span frame := if_pos rfl
  have hfinal : ∀ size, old.finalSize = some size →
      (afterStream old frame flow recvState).finalSize = some size := by
    intro size hs
    show (if frame.fin then some _ else old.finalSize) = some size
    by_cases hfin : frame.fin = true
    · rw [if_pos hfin, (hknown size hs).2 hfin]
    · simp [hfin, hs]
  refine ⟨?_, ?_, ?_⟩
  · intro id entry he
    by_cases hid : id = frame.streamId
    · subst hid
      rw [hfind, Option.some.injEq] at he
      rw [← he, harrived]
      exact ⟨hwf.afterStream hhigh hknown hins, hreset⟩
    rw [hbeside.others id hid] at he
    rw [arrived_ne (fun hc => hid hc.symm)]
    exact h.entries id entry he
  · intro other hother
    rw [mem_cons] at hother
    rcases hother with hnew | hold
    · subst hnew
      refine ⟨_, hfind, ?_, ?_⟩
      · intro size hs
        show (if frame.fin then some _ else old.finalSize) = some size
        unfold DataFrame.finalSize at hs
        simp only at hs
        by_cases hfin : frame.fin = true
        · rw [if_pos hfin] at hs ⊢
          exact hs
        · simp [hfin] at hs
      · show _ ≤ max old.highestReceivedEnd _ ∧ _ ≤ flow.limit
        omega
    · exact h.seen_step ho hbeside hfind hfinal (Nat.le_max_left _ _) hlim other hold
  rw [htotal, h.total, recharged]
  cases hr : resetSize log frame.streamId with
  | none =>
    have hcharge : charged (.stream frame :: log) frame.streamId
        = charged log frame.streamId + newly := by
      unfold charged
      rw [show resetSize (.stream frame :: log) frame.streamId = none from hr, hr, harrived, hnewly]
      simp only [Option.getD_none]
      rw [← Finset.union_sdiff_self_eq_union, Finset.card_union_of_disjoint Finset.disjoint_sdiff]
    rw [sum_charged_cons hcharge, recharge_open hr]
    omega
  | some size =>
    have hcharge : charged (.stream frame :: log) frame.streamId
        = charged log frame.streamId + 0 := by
      unfold charged
      rw [show resetSize (.stream frame :: log) frame.streamId = some size from hr, hr]
      rfl
    have hextra : recharge log (.stream frame)
        = (span frame \ arrived log frame.streamId).card := if_neg (by rw [hr]; simp)
    rw [sum_charged_cons hcharge, hextra]
    omega

/-- **An accepted RESET_STREAM.** -/
theorem receiveResetStream (h : Accounts log t) {reset : ResetStreamFrame}
    (hok : t.receiveResetStream reset = (.ok (), t')) : Accounts (.reset reset :: log) t' := by
  obtain ⟨old, flow, ho, hhigh, hknown, hle, hlim, hcount, hfind, hbeside, htotal⟩ :=
    receiveResetStream_ok hok
  obtain ⟨hwf, hreset⟩ := h.opened ho
  have hcard := hwf.tracks.total
  have hnow : resetSize (.reset reset :: log) reset.streamId = some reset.finalSize := if_pos rfl
  refine ⟨?_, ?_, ?_⟩
  · intro id entry he
    by_cases hid : id = reset.streamId
    · subst hid
      rw [hfind, Option.some.injEq] at he
      rw [← he, hnow]
      exact ⟨hwf.afterReset hhigh hknown, rfl⟩
    rw [hbeside.others id hid] at he
    rw [resetSize_ne (fun hc => hid hc.symm)]
    exact h.entries id entry he
  · intro other hother
    rw [mem_cons] at hother
    rcases hother with hnew | hold
    · subst hnew
      refine ⟨_, hfind, ?_, ?_⟩
      · intro size hs
        exact hs
      · show reset.finalSize ≤ flow.limit
        omega
    refine h.seen_step ho hbeside hfind ?_ (Nat.le_max_left _ _) hlim other hold
    intro size hs
    show some reset.finalSize = some size
    rw [hknown size hs]
  rw [htotal, h.total, recharged, hcard]
  cases hr : resetSize log reset.streamId with
  | none =>
    have hcharge : charged (.reset reset :: log) reset.streamId
        = charged log reset.streamId
          + (reset.finalSize - (arrived log reset.streamId).card) := by
      unfold charged
      rw [hnow, hr]
      show reset.finalSize = (arrived log reset.streamId).card + _
      omega
    rw [sum_charged_cons hcharge, recharge_open hr]
    omega
  | some size =>
    have hsame : reset.finalSize = size := by
      rw [hr, Option.map_eq_some_iff] at hreset
      obtain ⟨r, hr₁, hr₂⟩ := hreset
      rw [← hr₂]
      exact hknown _ (hwf.resetFinal r hr₁)
    have hcharge : charged (.reset reset :: log) reset.streamId
        = charged log reset.streamId + 0 := by simp [hnow, hr, hsame, charged]
    have hextra : recharge log (.reset reset)
        = reset.finalSize - (arrived log reset.streamId).card := if_neg (by rw [hr]; simp)
    rw [sum_charged_cons hcharge]
    omega

end Accounts

end StreamTable

end Netz.Quic
