/-
Runs of `path_validation.State`.

Every challenge that was queued is pending, outstanding or failed, unless it was answered, and
one that failed had been sent as often as the limit says.  The cached deadline is the earliest
one as long as no timeout sweep stops, for want of memory, between the last challenge that has
the cached deadline and the end of its work.
-/
import Netz.Lib.Machine
import Netz.Proofs.PathChallenges

namespace Netz.Quic.PathValidation

open Lib List

variable {s s' : PathValidation} {data : PathData}

/-! ### What a call keeps of the hash maps -/

lemma popPending_cons {nowNs timeoutNs : Option Nat} {first : Challenge} {rest : List Challenge}
    (hpend : s.pendingChallenges.activeConst = first :: rest) (count : Nat) :
    s.popPending nowNs timeoutNs (count + 1) =
      (first.data :: ((s.popPendingChallengeToOutstanding nowNs timeoutNs).2.popPending nowNs timeoutNs
        count).1,
      ((s.popPendingChallengeToOutstanding nowNs timeoutNs).2.popPending nowNs timeoutNs count).2) := by
  obtain ⟨left, -, hpop⟩ := popPendingChallengeToOutstanding_cons hpend nowNs timeoutNs
  rw [popPending, hpop]
  rfl

lemma popPending_nil {nowNs timeoutNs : Option Nat} (hpend : s.pendingChallenges.activeConst = [])
    (count : Nat) :
    s.popPending nowNs timeoutNs count = ([], s) := by
  cases count with
  | zero => rfl
  | succ count =>
    unfold popPending
    rw [popPendingChallengeToOutstanding_nil hpend]

lemma popPending_sound (h : Sound s) (nowNs timeoutNs : Option Nat) (count : Nat) :
    Sound (s.popPending nowNs timeoutNs count).2 := by
  induction count generalizing s with
  | zero => exact h
  | succ count ih =>
    cases hpend : s.pendingChallenges.activeConst with
    | nil =>
      rw [popPending_nil hpend]
      exact h
    | cons first rest =>
      rw [popPending_cons hpend]
      exact ih (h.popped hpend nowNs timeoutNs)

lemma popPending_timed (h : Timed s) (nowNs timeoutNs : Option Nat) (count : Nat) :
    Timed (s.popPending nowNs timeoutNs count).2 := by
  induction count generalizing s with
  | zero => exact h
  | succ count ih =>
    have hone := h.popped nowNs timeoutNs
    unfold popPending
    rcases hpop : s.popPendingChallengeToOutstanding nowNs timeoutNs with ⟨none | challenge, s₁⟩
    · rw [hpop] at hone
      exact hone
    · rw [hpop] at hone
      exact ih hone

lemma nextChallengeFrameAt_sends (s : PathValidation) (nowNs timeoutNs : Option Nat) (memory : Bool) :
    (s.nextChallengeFrameAt nowNs timeoutNs memory).2 = s ∨
      ((s.nextChallengeFrameAt nowNs timeoutNs memory).2 = (s.popPending nowNs timeoutNs 1).2 ∧
        (s.nextChallengeFrameAt nowNs timeoutNs memory).1.map (fun data => Reply.frames [data]) =
          .ok (.frames (s.popPending nowNs timeoutNs 1).1)) := by
  unfold nextChallengeFrameAt
  split
  · exact .inl rfl
  next hsome =>
  split
  · exact .inl rfl
  right
  cases hpend : s.pendingChallenges.activeConst with
  | nil =>
    rw [Fifo.len_eq, hpend] at hsome
    exact absurd rfl hsome
  | cons first rest =>
    obtain ⟨left, -, hpop⟩ := popPendingChallengeToOutstanding_cons hpend nowNs timeoutNs
    rw [popPending_cons hpend, hpop]
    exact ⟨rfl, rfl⟩

lemma nextChallengeFramesAt_sends (s : PathValidation) (out : Nat) (nowNs timeoutNs : Option Nat)
    (memory : Bool) :
    (s.nextChallengeFramesAt out nowNs timeoutNs memory).2 = s ∨
      ((s.nextChallengeFramesAt out nowNs timeoutNs memory).2 =
          (s.popPending nowNs timeoutNs (min out s.pendingChallenges.len)).2 ∧
        (s.nextChallengeFramesAt out nowNs timeoutNs memory).1 =
          .ok (s.popPending nowNs timeoutNs (min out s.pendingChallenges.len)).1) := by
  unfold nextChallengeFramesAt
  dsimp only
  split
  · exact .inl rfl
  split
  · exact .inl rfl
  · exact .inr ⟨rfl, rfl⟩

lemma Sound.recompute (h : Sound s) : Sound s.recomputeOutstandingDeadline :=
  ⟨h.distinct, h.pending, h.outstanding, h.unset, h.worn, h.responses⟩

lemma receiveResponseValidated_cases (h : Sound s) (data : PathData) :
    (s.receiveResponseValidated data = (false, s) ∧ data ∉ s.outstandingChallenges.map (·.data)) ∨
      ∃ c s₁, c.data = data ∧ Removed s s₁ c ∧ (s.receiveResponseValidated data).1 = true ∧
        ((s.receiveResponseValidated data).2 = s₁ ∨
          (s.receiveResponseValidated data).2 = s₁.recomputeOutstandingDeadline) ∧
        (Timed s → Timed (s.receiveResponseValidated data).2) := by
  unfold receiveResponseValidated
  cases hget : s.outstandingChallengeIndex.get data with
  | none =>
    refine .inl ⟨rfl, fun hmem => ?_⟩
    have hsome := (h.known data).mpr hmem
    simp [hget] at hsome
  | some index =>
    have hplace := (h.index data index).mp hget
    obtain ⟨c, hc, hdata⟩ := Option.map_eq_some_iff.mp hplace
    dsimp only
    rw [hc]
    obtain ⟨s₁, hremoved, hstate, htimed⟩ := removeOutstandingChallenge_spec h hc
    exact .inr ⟨c, s₁, hdata, hremoved, rfl, hstate, htimed⟩

lemma Sound.response (h : Sound s) : Sound s.nextResponseFrame.2 := by
  unfold nextResponseFrame
  cases hpend : s.pendingResponses.activeConst with
  | nil =>
    rw [Fifo.popFront_nil hpend]
    exact h
  | cons first rest =>
    obtain ⟨left, rfl, hpop⟩ := Fifo.popFront_cons hpend
    have hresp := h.responses
    rw [hpend, nodup_cons] at hresp
    obtain ⟨⟨hfirst, hrest⟩, hidx⟩ := hresp
    rw [hpop]
    refine ⟨h.distinct, h.pending, h.outstanding, h.unset, h.worn, hrest, fun d => ?_⟩
    rw [Table.get_remove]
    by_cases hd : d = first
    · rw [hd]
      exact iff_of_false (by simp) hfirst
    · simp [hd, hidx d]

lemma Sound.discard (h : Sound s) (count : Nat) : Sound (s.discardResponses count) := by
  induction count generalizing s with
  | zero => exact h
  | succ count ih =>
    have hone := h.response
    unfold discardResponses
    rcases hnext : s.nextResponseFrame with ⟨e | data, s₁⟩
    · rw [hnext] at hone
      exact hone
    · rw [hnext] at hone
      exact ih hone

lemma rebuildSet_get (keys : List PathData) (d : PathData) :
    ((rebuildSet keys).get d).isSome = true ↔ d ∈ keys := by
  have hall : ∀ t : Table PathData Unit,
      ((keys.foldl (fun t data => t.put data ()) t).get d).isSome = true ↔ d ∈ t.keys ∨ d ∈ keys := by
    induction keys with
    | nil => simp [Table.get_isSome_iff]
    | cons k rest ih =>
      intro t
      rw [foldl_cons, ih, Table.keys_put, mem_append, mem_singleton, mem_cons,
        or_assoc]
  simp [hall, Table.keys, rebuildSet]

lemma Sound.clone (h : Sound s) {memory : Bool} {copy : PathValidation}
    (hcopy : s.clone memory = .ok copy) : Sound copy ∧ Timed copy := by
  unfold PathValidation.clone at hcopy
  split at hcopy
  · cases hcopy
  cases hcopy
  have hnodup : (s.outstandingChallenges.flatMap (fun c : Challenge => [c.data])).Nodup := by
    rw [← map_eq_flatMap]
    have hdist := h.distinct
    rw [map_append, nodup_append] at hdist
    exact hdist.2.1
  exact ⟨⟨h.distinct, rebuildSet_get _, positions_rebuild hnodup, h.unset, h.worn,
    h.responses.1, rebuildSet_get _⟩, rfl⟩

lemma checkTimeouts_sweeps (h : Sound s) (nowNs room : Nat) {earliest : Nat}
    (hmin : s.earliestOutstandingDeadlineNs = some earliest) (hdue : earliest ≤ nowNs)
    {order : List Challenge}
    (horder : dueOrder nowNs s.outstandingChallenges.length 0 s.outstandingChallenges = order) :
    ∃ s₁, Expired s s₁ (order.take room) ∧ Sound s₁ ∧
      s.checkTimeouts nowNs room = sweepResult s s₁ order room 0 false := by
  unfold checkTimeouts
  rw [hmin]
  dsimp only
  rw [if_neg (Nat.not_lt_of_le hdue)]
  exact sweep_spec nowNs _ 0 room 0 false h horder

lemma checkTimeouts_cases (h : Sound s) (nowNs room : Nat) :
    s.checkTimeouts nowNs room = (.ok 0, s) ∨
      ∃ s₁ moved, Expired s s₁ moved ∧ Sound s₁ ∧
        ((s.checkTimeouts nowNs room).2 = s₁ ∨
          (s.checkTimeouts nowNs room).2 = s₁.recomputeOutstandingDeadline) := by
  cases hmin : s.earliestOutstandingDeadlineNs with
  | none => simp [hmin, checkTimeouts]
  | some earliest =>
    by_cases hlt : nowNs < earliest
    · left
      unfold checkTimeouts
      rw [hmin]
      exact if_pos hlt
    right
    obtain ⟨s₁, hexp, hsound, hcall⟩ :=
      checkTimeouts_sweeps h nowNs room hmin (not_lt.mp hlt) rfl
    refine ⟨s₁, _, hexp, hsound, ?_⟩
    rw [hcall]
    unfold sweepResult
    split
    · dsimp only
      split
      · exact .inr rfl
      · exact .inl rfl
    · exact .inl rfl

lemma Sound.received (h : Sound s) (data : PathData) (memory : Bool) :
    Sound (s.receiveChallenge data memory).2 := by
  unfold receiveChallenge
  by_cases hknown : (s.pendingResponseIndex.get data).isSome = true
  · simp [hknown, h]
  rw [if_neg hknown]
  split
  · exact h
  have hnone : s.pendingResponseIndex.get data = none := Option.not_isSome_iff_eq_none.mp hknown
  have hnew : data ∉ s.pendingResponses.activeConst := fun hmem => hknown ((h.responses.2 data).mpr hmem)
  refine ⟨h.distinct, h.pending, h.outstanding, h.unset, h.worn, ?_, fun d => ?_⟩
  · rw [Fifo.activeConst_append]
    refine nodup_append.mpr ⟨h.responses.1, nodup_singleton _, ?_⟩
    intro a ha b hb hab
    rw [mem_singleton.mp hb] at hab
    exact hnew (hab ▸ ha)
  dsimp only
  rw [Table.get_put hnone, Fifo.activeConst_append, mem_append, ← h.responses.2]
  by_cases hd : d = data
  · simp [hd]
  · simp [hd]

/-- **Every call keeps the hash maps in step with the lists.** -/
theorem Sound.step (h : Sound s) (op : Op) : Sound (s.step op).2 := by
  cases op with
  | queueChallenge data memory =>
    show Sound (s.queueChallenge data memory).2
    rcases queueChallenge_cases h data memory with ⟨hnew, -, hcall⟩ | ⟨-, hsame⟩
    · rw [hcall]
      exact h.queued hnew
    · rw [hsame]
      exact h
  | nextChallengeFrameAt nowNs timeoutNs memory =>
    show Sound (s.nextChallengeFrameAt nowNs timeoutNs memory).2
    rcases nextChallengeFrameAt_sends s nowNs timeoutNs memory with hsame | ⟨hpop, -⟩
    · rw [hsame]
      exact h
    · rw [hpop]
      exact popPending_sound h nowNs timeoutNs 1
  | nextChallengeFramesAt out nowNs timeoutNs memory =>
    show Sound (s.nextChallengeFramesAt out nowNs timeoutNs memory).2
    rcases nextChallengeFramesAt_sends s out nowNs timeoutNs memory with hsame | ⟨hpop, -⟩
    · rw [hsame]
      exact h
    · rw [hpop]
      exact popPending_sound h nowNs timeoutNs _
  | receiveResponseValidated data =>
    show Sound (s.receiveResponseValidated data).2
    rcases receiveResponseValidated_cases h data with ⟨hsame, -⟩ | ⟨c, s₁, -, hremoved, -, hstate, -⟩
    · rw [hsame]
      exact h
    rcases hstate with hstate | hstate
    · rw [hstate]
      exact hremoved.sound h
    · rw [hstate]
      exact (hremoved.sound h).recompute
  | checkTimeouts nowNs room =>
    show Sound (s.checkTimeouts nowNs room).2
    rcases checkTimeouts_cases h nowNs room with hsame | ⟨s₁, moved, -, hs₁, hstate | hstate⟩
    · rw [hsame]
      exact h
    · rw [hstate]
      exact hs₁
    · rw [hstate]
      exact hs₁.recompute
  | receiveChallenge data memory => exact h.received data memory
  | nextResponseFrame => exact h.response
  | discardResponses count => exact h.discard count
  | clone memory =>
    unfold PathValidation.step
    dsimp only
    cases hcall : s.clone memory with
    | error e => exact h
    | ok copy => exact (h.clone hcall).1

/-! ### The cached deadline -/

/--
The call is not a timeout sweep that runs out of memory after the last of the challenges with
the cached deadline.
-/
def Untorn (s : PathValidation) : Op → Prop
  | .checkTimeouts nowNs room =>
    ∀ earliest, s.earliestOutstandingDeadlineNs = some earliest → earliest ≤ nowNs →
      let order := dueOrder nowNs s.outstandingChallenges.length 0 s.outstandingChallenges
      order.length ≤ room ∨ ∃ c ∈ order.drop room, c.deadlineNs = some earliest
  | _ => True

lemma Expired.left {nowNs room : Nat} {order : List Challenge}
    (horder : dueOrder nowNs s.outstandingChallenges.length 0 s.outstandingChallenges = order)
    (h : Expired s s' (order.take room)) :
    s'.outstandingChallenges.Perm
      (order.drop room ++ s.outstandingChallenges.filter (fun c => !c.due nowNs)) := by
  have hdue : order.Perm (s.outstandingChallenges.filter (·.due nowNs)) := by
    rw [← horder]
    exact dueOrder_perm (Nat.add_zero _)
  have hsplit : s.outstandingChallenges.Perm
      (order ++ s.outstandingChallenges.filter (fun c => !c.due nowNs)) :=
    (filter_append_perm (·.due nowNs) s.outstandingChallenges).symm.trans (hdue.symm.append_right _)
  have hall : (order.take room ++ s'.outstandingChallenges).Perm
      (order.take room ++
        (order.drop room ++ s.outstandingChallenges.filter (fun c => !c.due nowNs))) := by
    rw [← append_assoc, take_append_drop]
    exact h.challenges.symm.trans hsplit
  exact (perm_append_left_iff _).mp hall

/-- **Exactly the sweeps that are cut short there leave the cached deadline behind.** -/
theorem checkTimeouts_timed_iff (h : Sound s) (ht : Timed s) (nowNs room : Nat) :
    Timed (s.checkTimeouts nowNs room).2 ↔ Untorn s (.checkTimeouts nowNs room) := by
  cases hearliest : s.earliestOutstandingDeadlineNs with
  | none =>
    refine iff_of_true ?_ (fun e he => by rw [hearliest] at he; cases he)
    simp [hearliest, ht, checkTimeouts]
  | some earliest =>
    by_cases hlt : nowNs < earliest
    · refine iff_of_true ?_ (fun e he hle => ?_)
      · simp [hearliest, hlt, ht, checkTimeouts]
      · rw [hearliest, Option.some.injEq] at he
        omega
    obtain ⟨order, horder⟩ : ∃ order, dueOrder nowNs s.outstandingChallenges.length 0
        s.outstandingChallenges = order := ⟨_, rfl⟩
    obtain ⟨s₁, hexp, -, hcall⟩ :=
      checkTimeouts_sweeps h nowNs room hearliest (not_lt.mp hlt) horder
    have hleft := hexp.left horder
    have hsame : s₁.earliestOutstandingDeadlineNs = some earliest := by
      rw [hexp.rest]
      exact hearliest
    have hmin : earliestDeadline s.outstandingChallenges = some earliest := ht ▸ hearliest
    obtain ⟨⟨first, hfirst, hfirstDeadline⟩, hall⟩ := earliestDeadline_some.mp hmin
    have hmem : ∀ c, c ∈ order ↔ c ∈ s.outstandingChallenges ∧ c.due nowNs = true := by
      intro c
      rw [← horder, (dueOrder_perm (Nat.add_zero _)).mem_iff, drop_zero, mem_filter]
    rw [hcall]
    unfold sweepResult Untorn
    dsimp only
    rw [horder]
    by_cases hroom : order.length ≤ room
    · rw [if_pos hroom]
      refine iff_of_true ?_ (fun _ _ _ => .inl hroom)
      have hreached : order.any s.cachedDeadline = true := by
        rw [any_eq_true]
        refine ⟨first, (hmem first).mpr ⟨hfirst, ?_⟩, ?_⟩
        · unfold Challenge.due
          rw [hfirstDeadline]
          exact decide_eq_true (not_lt.mp hlt)
        · simp [hfirstDeadline, hearliest, cachedDeadline]
      rw [hreached]
      rfl
    rw [if_neg hroom]
    unfold Timed
    rw [hsame, eq_comm, earliestDeadline_some]
    constructor
    · rintro ⟨⟨c, hc, hdue⟩, -⟩ e he -
      rw [hearliest] at he
      right
      rcases mem_append.mp (hleft.mem_iff.mp hc) with hdrop | hnot
      · exact ⟨c, hdrop, he ▸ hdue⟩
      have hundue := (mem_filter.mp hnot).2
      unfold Challenge.due at hundue
      rw [hdue] at hundue
      simp at hundue
      omega
    intro huntorn
    rcases huntorn earliest hearliest (not_lt.mp hlt) with hle | ⟨c, hc, hdue⟩
    · exact absurd hle hroom
    refine ⟨⟨c, hleft.mem_iff.mpr (mem_append_left _ hc), hdue⟩, ?_⟩
    intro c' hc' d hd
    refine hall c' ?_ d hd
    rw [hexp.challenges.mem_iff]
    exact mem_append_right _ hc'

lemma Timed.step (h : Sound s) (ht : Timed s) (op : Op) (huntorn : Untorn s op) :
    Timed (s.step op).2 := by
  cases op with
  | queueChallenge data memory =>
    show Timed (s.queueChallenge data memory).2
    rcases queueChallenge_cases h data memory with ⟨-, -, hcall⟩ | ⟨-, hsame⟩
    · rw [hcall]
      exact ht
    · rw [hsame]
      exact ht
  | nextChallengeFrameAt nowNs timeoutNs memory =>
    show Timed (s.nextChallengeFrameAt nowNs timeoutNs memory).2
    rcases nextChallengeFrameAt_sends s nowNs timeoutNs memory with hsame | ⟨hpop, -⟩
    · rw [hsame]
      exact ht
    · rw [hpop]
      exact popPending_timed ht nowNs timeoutNs 1
  | nextChallengeFramesAt out nowNs timeoutNs memory =>
    show Timed (s.nextChallengeFramesAt out nowNs timeoutNs memory).2
    rcases nextChallengeFramesAt_sends s out nowNs timeoutNs memory with hsame | ⟨hpop, -⟩
    · rw [hsame]
      exact ht
    · rw [hpop]
      exact popPending_timed ht nowNs timeoutNs _
  | receiveResponseValidated data =>
    show Timed (s.receiveResponseValidated data).2
    rcases receiveResponseValidated_cases h data with ⟨hsame, -⟩ | ⟨c, s₁, -, -, -, -, htimed⟩
    · rw [hsame]
      exact ht
    · exact htimed ht
  | checkTimeouts nowNs room => exact (checkTimeouts_timed_iff h ht nowNs room).mpr huntorn
  | receiveChallenge data memory =>
    show Timed (s.receiveChallenge data memory).2
    unfold receiveChallenge
    split
    · exact ht
    · split <;> exact ht
  | nextResponseFrame =>
    show Timed s.nextResponseFrame.2
    unfold nextResponseFrame
    split <;> exact ht
  | discardResponses count =>
    show Timed (s.discardResponses count)
    induction count generalizing s with
    | zero => exact ht
    | succ count ih =>
      have hone : Timed s.nextResponseFrame.2 := by
        unfold nextResponseFrame
        split <;> exact ht
      have hsound := h.response
      unfold discardResponses
      rcases hnext : s.nextResponseFrame with ⟨e | data, s₁⟩
      · rw [hnext] at hone
        exact hone
      · rw [hnext] at hone hsound
        exact ih hsound hone trivial
  | clone memory =>
    unfold PathValidation.step
    dsimp only
    cases hcall : s.clone memory with
    | error e => exact ht
    | ok copy => exact (h.clone hcall).2

end Netz.Quic.PathValidation

/-! ### `path_validation.State` does what `PathState` does

The hash maps answer what a search of the lists answers, and the queues hold what is behind their
heads, so a call on the whole state answers, and leaves the lists, as the same call on `PathState`
does. -/

namespace Netz.Quic.PathValidation

open Lib

variable {s : PathValidation}

/-- The lists of the state. -/
def view (s : PathValidation) : PathState :=
  { pendingResponses := s.pendingResponses.activeConst
    pendingChallenges := s.pendingChallenges.activeConst
    outstandingChallenges := s.outstandingChallenges }

lemma any_data (cs : List Challenge) (data : PathData) :
    cs.any (fun c => c.data == data) = true ↔ data ∈ cs.map (·.data) := by simp

lemma view_outstanding (h : Sound s) (data : PathData) :
    s.view.outstanding data = (s.outstandingChallengeIndex.get data).isSome := by
  rw [Bool.eq_iff_iff, h.known]
  exact any_data s.outstandingChallenges data

lemma view_queueChallenge (h : Sound s) (data : PathData) :
    (s.queueChallenge data true).2.view = s.view.queueChallenge data := by
  have hpend : (s.pendingChallengeIndex.get data).isSome =
      s.pendingChallenges.activeConst.any (fun c => c.data == data) := by
    rw [Bool.eq_iff_iff, h.pending]
    exact (any_data s.pendingChallenges.activeConst data).symm
  unfold queueChallenge PathState.queueChallenge
  rw [view_outstanding h, hpend]
  show _ = if (_ || s.pendingChallenges.activeConst.any (fun c => c.data == data)) = true then _ else _
  cases (s.outstandingChallengeIndex.get data).isSome with
  | true => rfl
  | false =>
    cases s.pendingChallenges.activeConst.any (fun c => c.data == data) with
    | true => rfl
    | false => simp [view]

lemma view_nextChallengeFrameAt (h : Sound s) (nowNs timeoutNs : Option Nat) :
    (s.nextChallengeFrameAt nowNs timeoutNs true).1.toOption =
        s.view.pendingChallenges.head?.map (·.data) ∧
      (s.nextChallengeFrameAt nowNs timeoutNs true).2.view = s.view.nextChallengeFrameAt
        (nowNs.bind fun now => timeoutNs.map (saturatingAdd now)) := by
  have hview : s.view.pendingChallenges = s.pendingChallenges.activeConst := rfl
  unfold nextChallengeFrameAt PathState.nextChallengeFrameAt
  rw [hview, Fifo.len_eq]
  cases hpend : s.pendingChallenges.activeConst with
  | nil => exact ⟨rfl, rfl⟩
  | cons first rest =>
    obtain ⟨left, rfl, hpop⟩ := popPendingChallengeToOutstanding_cons hpend nowNs timeoutNs
    have hunset := h.unset first (by rw [hpend]; exact List.mem_cons_self)
    rw [if_neg (by simp), if_neg (by simp), hpop]
    refine ⟨rfl, ?_⟩
    unfold Challenge.transmit
    dsimp only
    rw [hunset]
    cases nowNs with
    | none => rfl
    | some now => cases timeoutNs <;> rfl

lemma view_receiveResponseValidated (h : Sound s) (data : PathData) :
    ((s.receiveResponseValidated data).1, (s.receiveResponseValidated data).2.view) =
      s.view.receiveResponseValidated data := by
  have hview : s.view.outstandingChallenges = s.outstandingChallenges := rfl
  unfold receiveResponseValidated PathState.receiveResponseValidated
  rw [hview]
  cases hget : s.outstandingChallengeIndex.get data with
  | none =>
    have hnone : s.outstandingChallenges.findIdx? (fun c => c.data == data) = none := by
      rw [List.findIdx?_eq_none_iff]
      intro c hc
      have hunknown := (h.known data).not.mp (by rw [hget]; simp)
      rw [beq_eq_false_iff_ne]
      exact fun hdata => hunknown (List.mem_map.mpr ⟨c, hc, hdata⟩)
    rw [hnone]
  | some index =>
    obtain ⟨c, hc, hdata⟩ := Option.map_eq_some_iff.mp ((h.index data index).mp hget)
    obtain ⟨hlt, hvalue⟩ := List.getElem_of_getElem? hc
    have hfirst : s.outstandingChallenges.findIdx? (fun c => c.data == data) = some index := by
      rw [List.findIdx?_eq_some_iff_getElem]
      refine ⟨hlt, by rw [hvalue]; exact beq_iff_eq.mpr hdata, fun j hj hsame => ?_⟩
      -- the index gives the data one position
      have hother := (h.index data j).mpr (by
        rw [List.getElem?_eq_getElem (Nat.lt_trans hj hlt)]
        exact congrArg some (beq_iff_eq.mp hsame))
      rw [hget, Option.some.injEq] at hother
      omega
    rw [hfirst]
    dsimp only
    rw [hc]
    dsimp only
    unfold removeOutstandingChallenge
    rcases hcall : s.removeOutstandingChallengeDeferredDeadline index c with ⟨cached, s₁⟩
    have hlist : s₁.view =
        { s.view with outstandingChallenges := swapRemove s.outstandingChallenges index } := by
      have hstate : s₁ = (s.removeOutstandingChallengeDeferredDeadline index c).2 := by rw [hcall]
      rw [hstate]
      rfl
    cases cached with
    | true | false => exact congrArg (Prod.mk true) hlist

lemma view_receiveChallenge (h : Sound s) (data : PathData) :
    (s.receiveChallenge data true).1 = .ok (s.view.receiveChallenge data).1 ∧
      (s.receiveChallenge data true).2.view = (s.view.receiveChallenge data).2 := by
  unfold receiveChallenge PathState.receiveChallenge
  by_cases hknown : data ∈ s.pendingResponses.activeConst
  · rw [if_pos ((h.responses.2 data).mpr hknown), if_pos (by exact hknown)]
    exact ⟨rfl, rfl⟩
  · rw [if_neg (fun hsome => hknown ((h.responses.2 data).mp hsome))]
    simp [hknown, view]

lemma view_nextResponseFrame (s : PathValidation) :
    s.nextResponseFrame.1.toOption = s.view.pendingResponses.head? ∧
      s.nextResponseFrame.2.view = s.view.discardResponses 1 := by
  unfold nextResponseFrame PathState.discardResponses
  cases hpend : s.pendingResponses.activeConst with
  | nil =>
    rw [Fifo.popFront_nil hpend]
    simp [hpend, view, Except.toOption]
  | cons first rest =>
    obtain ⟨left, rfl, hpop⟩ := Fifo.popFront_cons hpend
    rw [hpop]
    simp [hpend, view, Except.toOption]

lemma view_discardResponses (s : PathValidation) (count : Nat) :
    (s.discardResponses count).view = s.view.discardResponses count := by
  induction count generalizing s with
  | zero => rfl
  | succ count ih =>
    obtain ⟨hanswer, hone⟩ := view_nextResponseFrame s
    unfold discardResponses
    rcases hnext : s.nextResponseFrame with ⟨e | data, s₁⟩
    · rw [hnext] at hanswer hone
      have hnone : s.view.pendingResponses = [] := List.head?_eq_none_iff.mp hanswer.symm
      rw [hone]
      simp [PathState.discardResponses, hnone]
    · rw [hnext] at hone
      rw [ih, hone]
      simp [PathState.discardResponses]

/-- The calls of the connection answer, and leave the lists, as on `PathState`. -/
structure RefinesLists (s : PathValidation) : Prop where
  queueChallenge : ∀ data, (s.queueChallenge data true).2.view = s.view.queueChallenge data
  nextChallengeFrameAt : ∀ nowNs timeoutNs,
    (s.nextChallengeFrameAt nowNs timeoutNs true).1.toOption =
        s.view.pendingChallenges.head?.map (·.data) ∧
      (s.nextChallengeFrameAt nowNs timeoutNs true).2.view = s.view.nextChallengeFrameAt
        (nowNs.bind fun now => timeoutNs.map (saturatingAdd now))
  receiveResponseValidated : ∀ data,
    ((s.receiveResponseValidated data).1, (s.receiveResponseValidated data).2.view)
      = s.view.receiveResponseValidated data
  receiveChallenge : ∀ data,
    (s.receiveChallenge data true).1 = .ok (s.view.receiveChallenge data).1 ∧
      (s.receiveChallenge data true).2.view = (s.view.receiveChallenge data).2
  nextResponseFrame : s.nextResponseFrame.1.toOption = s.view.pendingResponses.head? ∧
    s.nextResponseFrame.2.view = s.view.discardResponses 1
  discardResponses : ∀ count, (s.discardResponses count).view = s.view.discardResponses count

/-- **After every run of calls the state refines `PathState`.** -/
theorem refines_lists (limit : Nat) (ops : List Op) :
    RefinesLists (exec step { maxChallengeTransmissions := limit } ops) := by
  have h := exec_induction step Sound (sound_init limit) (fun _ op hs => hs.step op) ops
  exact ⟨view_queueChallenge h, view_nextChallengeFrameAt h, view_receiveResponseValidated h,
    view_receiveChallenge h, view_nextResponseFrame _, view_discardResponses _⟩

end Netz.Quic.PathValidation
