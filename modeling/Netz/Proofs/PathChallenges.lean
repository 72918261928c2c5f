/-
What the calls on `path_validation.State` keep.

`Sound` ties the hash maps to the lists and keeps the data of pending and outstanding
challenges distinct; `Timed` says that the cached deadline is the earliest one.  The timeout
sweep changes the list it goes through: it meets the challenges whose deadline has passed in
the order `dueOrder`, and moves the first of them, as many as there is memory for.
-/
import Netz.Quic.PathChallenges

namespace Netz.Quic

open Lib List Option

/-- A challenge whose deadline has passed, as it is kept from then on. -/
def Challenge.idle (c : Challenge) : Challenge := { c with deadlineNs := none }

/-! ### The queues

A queue is used as the list of what is still in it. -/

namespace Fifo

variable {α : Type} {f : Fifo α} {value : α} {rest : List α}

@[simp] lemma activeConst_compactIfEmpty : f.compactIfEmpty.activeConst = f.activeConst := by
  unfold compactIfEmpty
  split
  · next hempty =>
      unfold activeConst
      rw [hempty.2, drop_length]
      rfl
  · rfl

@[simp] lemma activeConst_append : (f.append value).activeConst = f.activeConst ++ [value] := by
  rw [← activeConst_compactIfEmpty (f := f)]
  exact drop_append_of_le_length f.compactIfEmpty.inside

lemma len_eq (f : Fifo α) : f.len = f.activeConst.length := length_drop.symm

lemma popFront_nil (h : f.activeConst = []) : f.popFront = none :=
  dif_neg (Nat.not_lt_of_le (drop_eq_nil_iff.mp h))

lemma popFront_cons (h : f.activeConst = value :: rest) :
    ∃ left : Fifo α, left.activeConst = rest ∧ f.popFront = some (value, left) := by
  have hlt : f.head < f.items.length := by
    by_contra hge
    rw [activeConst, drop_eq_nil_of_le (not_lt.mp hge)] at h
    cases h
  have hsplit := drop_eq_getElem_cons hlt
  rw [← activeConst, h, cons_eq_cons] at hsplit
  refine ⟨Fifo.compactIfEmpty ⟨f.items, f.head + 1, hlt⟩, ?_, ?_⟩
  · rw [activeConst_compactIfEmpty]
    exact hsplit.2.symm
  · unfold popFront
    rw [dif_pos hlt, hsplit.1]

end Fifo

namespace PathValidation

variable {s s' : PathValidation} {data : PathData}

/-! ### The earliest deadline -/

lemma considerDeadline_some (current : Nat) (deadline : Option Nat) :
    considerDeadline (some current) deadline = some (deadline.toList.foldl min current) := by
  cases deadline with
  | none => rfl
  | some candidate =>
    show (if candidate < current then some candidate else some current) = some (min current candidate)
    split
    · rw [Nat.min_eq_right (by omega)]
    · rw [Nat.min_eq_left (by omega)]

lemma foldl_considerDeadline (challenges : List Challenge) (current : Nat) :
    challenges.foldl (fun earliest c => considerDeadline earliest c.deadlineNs) (some current)
      = some ((challenges.filterMap (·.deadlineNs)).foldl min current) := by
  induction challenges generalizing current with
  | nil => rfl
  | cons c rest ih =>
    rw [foldl_cons, considerDeadline_some, ih]
    cases hdue : c.deadlineNs with
    | none => rw [filterMap_cons_none hdue]; rfl
    | some deadline => rw [filterMap_cons_some hdue]; rfl

/-- **The cached deadline, made from scratch, is the minimum of all deadlines.** -/
theorem earliestDeadline_eq (challenges : List Challenge) :
    earliestDeadline challenges = (challenges.filterMap (·.deadlineNs)).min? := by
  induction challenges with
  | nil => rfl
  | cons c rest ih =>
    unfold earliestDeadline at ih ⊢
    rw [foldl_cons]
    cases hdue : c.deadlineNs with
    | none =>
      rw [filterMap_cons_none hdue]
      exact ih
    | some deadline =>
      rw [filterMap_cons_some hdue]
      exact foldl_considerDeadline rest deadline

lemma earliestDeadline_some {challenges : List Challenge} {e : Nat} :
    earliestDeadline challenges = some e ↔ (∃ c ∈ challenges, c.deadlineNs = some e) ∧
        ∀ c ∈ challenges, ∀ d, c.deadlineNs = some d → e ≤ d := by
  rw [earliestDeadline_eq, min?_eq_some_iff, mem_filterMap]
  refine and_congr_right (fun _ => ?_)
  constructor
  · intro h c hc d hd
    exact h d (mem_filterMap.mpr ⟨c, hc, hd⟩)
  intro h d hd
  obtain ⟨c, hc, hcd⟩ := mem_filterMap.mp hd
  exact h c hc d hcd

lemma earliestDeadline_none {challenges : List Challenge} :
    earliestDeadline challenges = none ↔ ∀ c ∈ challenges, c.deadlineNs = none := by
  rw [earliestDeadline_eq, min?_eq_none_iff, filterMap_eq_nil_iff]

lemma earliestDeadline_concat (challenges : List Challenge) (c : Challenge) :
    earliestDeadline (challenges ++ [c]) = considerDeadline (earliestDeadline challenges) c.deadlineNs := by
  simp [earliestDeadline]

variable {c : Challenge}

lemma earliestDeadline_erase {challenges rest : List Challenge}
    (hperm : challenges.Perm (c :: rest))
    (hother : (c.deadlineNs.isSome && c.deadlineNs == earliestDeadline challenges) = false) :
    earliestDeadline rest = earliestDeadline challenges := by
  have hmem : ∀ c', c' ∈ challenges ↔ c' = c ∨ c' ∈ rest := fun c' => by
    rw [hperm.mem_iff, mem_cons]
  cases hmin : earliestDeadline challenges with
  | none =>
    rw [earliestDeadline_none] at hmin ⊢
    intro c' hc'
    exact hmin c' ((hmem c').mpr (.inr hc'))
  | some e =>
    have hne : c.deadlineNs ≠ some e := by
      intro hc
      simp [hc, hmin] at hother
    rw [earliestDeadline_some] at hmin ⊢
    obtain ⟨⟨c', hc', hdue⟩, hall⟩ := hmin
    refine ⟨⟨c', ?_, hdue⟩, fun d hd => hall d ((hmem d).mpr (.inr hd))⟩
    rcases (hmem c').mp hc' with rfl | hrest
    · exact absurd hdue hne
    · exact hrest

/-! ### The hash maps -/

/-- The hash maps hold what the lists hold, and no challenge is queued twice. -/
structure Sound (s : PathValidation) : Prop where
  distinct : ((s.pendingChallenges.activeConst ++ s.outstandingChallenges).map (·.data)).Nodup
  pending : ∀ d, (s.pendingChallengeIndex.get d).isSome = true ↔
    d ∈ s.pendingChallenges.activeConst.map (·.data)
  outstanding : Positions (fun c : Challenge => [c.data]) s.outstandingChallenges
    s.outstandingChallengeIndex
  unset : ∀ c ∈ s.pendingChallenges.activeConst, c.deadlineNs = none
  worn : ∀ c ∈ s.failedChallenges, s.maxChallengeTransmissions ≤ c.transmissions
  responses : s.pendingResponses.activeConst.Nodup ∧
    ∀ d, (s.pendingResponseIndex.get d).isSome = true ↔ d ∈ s.pendingResponses.activeConst

/-- The cached deadline is the earliest one of the outstanding challenges. -/
def Timed (s : PathValidation) : Prop :=
  s.earliestOutstandingDeadlineNs = earliestDeadline s.outstandingChallenges

lemma sound_init (limit : Nat) : Sound { maxChallengeTransmissions := limit } where
  distinct := nodup_nil
  pending d := by simp [Fifo.activeConst]
  outstanding := Positions.empty
  unset c hc := by cases hc
  worn c hc := by cases hc
  responses := ⟨nodup_nil, fun d => by simp [Fifo.activeConst]⟩

/-- The lookup index maps the data of each outstanding challenge to its position. -/
theorem Sound.index (h : Sound s) (d : PathData) (i : Nat) :
    s.outstandingChallengeIndex.get d = some i ↔
      (s.outstandingChallenges[i]?).map (·.data) = some d := by
  rw [h.outstanding d i, map_eq_some_iff]
  refine exists_congr (fun c => and_congr_right (fun _ => ?_))
  rw [mem_singleton]
  exact eq_comm

lemma Sound.known (h : Sound s) (d : PathData) :
    (s.outstandingChallengeIndex.get d).isSome = true ↔ d ∈ s.outstandingChallenges.map (·.data) := by
  simp [isSome_iff_exists, mem_iff_getElem?, h.index]

/-! ### Queueing and sending -/

/-- The challenge is neither pending nor outstanding. -/
def New (s : PathValidation) (d : PathData) : Prop :=
  d ∉ (s.pendingChallenges.activeConst ++ s.outstandingChallenges).map (·.data)

instance (s : PathValidation) (d : PathData) : Decidable (New s d) := inferInstanceAs (Decidable (_ ∉ _))

lemma queueChallenge_cases (h : Sound s) (data : PathData) (memory : Bool) :
    (New s data ∧ memory = true ∧
      s.queueChallenge data memory = (.ok (),
        { s with
          pendingChallengeIndex := s.pendingChallengeIndex.put data ()
          pendingChallenges := s.pendingChallenges.append { data := data } })) ∨
    (¬ (New s data ∧ memory = true) ∧ (s.queueChallenge data memory).2 = s) := by
  have hnew : New s data ↔ (s.outstandingChallengeIndex.get data).isSome = false ∧
      (s.pendingChallengeIndex.get data).isSome = false := by
    unfold New
    rw [map_append, mem_append, not_or, ← h.known, ← h.pending, Bool.not_eq_true,
      Bool.not_eq_true]
    exact and_comm
  unfold queueChallenge
  by_cases hout : (s.outstandingChallengeIndex.get data).isSome = true
  · simp [hout, hnew]
  rw [if_neg hout]
  by_cases hpend : (s.pendingChallengeIndex.get data).isSome = true
  · simp [hpend, hnew]
  rw [if_neg hpend]
  cases memory with
  | false => exact .inr ⟨by simp, rfl⟩
  | true =>
    refine .inl ⟨hnew.mpr ⟨?_, ?_⟩, rfl, rfl⟩
    · simpa using hout
    · simpa using hpend

lemma Sound.queued (h : Sound s) (hnew : New s data) :
    Sound
      { s with
        pendingChallengeIndex := s.pendingChallengeIndex.put data ()
        pendingChallenges := s.pendingChallenges.append { data := data } } where
  distinct := by
    rw [Fifo.activeConst_append]
    have hperm : ((s.pendingChallenges.activeConst ++ [({ data := data } : Challenge)]) ++
        s.outstandingChallenges).Perm
        ({ data := data } :: (s.pendingChallenges.activeConst ++ s.outstandingChallenges)) := by
      simp
    refine (hperm.map (·.data)).nodup_iff.mpr ?_
    rw [map_cons, nodup_cons]
    exact ⟨hnew, h.distinct⟩
  pending d := by
    have hnone : s.pendingChallengeIndex.get data = none := by
      rw [← not_isSome_iff_eq_none, h.pending]
      intro hmem
      apply hnew
      rw [map_append]
      exact mem_append_left _ hmem
    rw [Table.get_put hnone, Fifo.activeConst_append, map_append, mem_append, ← h.pending]
    by_cases hd : d = data
    · simp [hd]
    · simp [hd]
  outstanding := h.outstanding
  unset c hc := by
    rw [Fifo.activeConst_append] at hc
    rcases mem_append.mp hc with hold | hnew
    · exact h.unset c hold
    · rw [mem_singleton.mp hnew]
  worn := h.worn
  responses := h.responses

/-- The first pending challenge is sent. -/
theorem popPendingChallengeToOutstanding_cons {first : Challenge} {rest : List Challenge}
    (hpend : s.pendingChallenges.activeConst = first :: rest) (nowNs timeoutNs : Option Nat) :
    ∃ left : Fifo Challenge, left.activeConst = rest ∧
      s.popPendingChallengeToOutstanding nowNs timeoutNs =
        (some (first.transmit nowNs timeoutNs),
          { s with
            pendingChallenges := left
            pendingChallengeIndex := s.pendingChallengeIndex.remove first.data
            outstandingChallengeIndex :=
              setIndex s.outstandingChallengeIndex first.data s.outstandingChallenges.length
            outstandingChallenges := s.outstandingChallenges ++ [first.transmit nowNs timeoutNs]
              }.considerOutstandingDeadline (first.transmit nowNs timeoutNs).deadlineNs) := by
  obtain ⟨left, hleft, hpop⟩ := Fifo.popFront_cons hpend
  refine ⟨left, hleft, ?_⟩
  unfold popPendingChallengeToOutstanding
  rw [hpop]

lemma popPendingChallengeToOutstanding_nil (hpend : s.pendingChallenges.activeConst = [])
    (nowNs timeoutNs : Option Nat) :
    s.popPendingChallengeToOutstanding nowNs timeoutNs = (none, s) := by
  unfold popPendingChallengeToOutstanding
  rw [Fifo.popFront_nil hpend]

lemma Sound.popped (h : Sound s) {first : Challenge} {rest : List Challenge}
    (hpend : s.pendingChallenges.activeConst = first :: rest) (nowNs timeoutNs : Option Nat) :
    Sound (s.popPendingChallengeToOutstanding nowNs timeoutNs).2 := by
  have hdist := h.distinct
  rw [hpend, cons_append, map_cons, nodup_cons] at hdist
  obtain ⟨hfirst, hrest⟩ := hdist
  rw [map_append, mem_append, not_or] at hfirst
  have hdata : (first.transmit nowNs timeoutNs).data = first.data := rfl
  have hnone : s.outstandingChallengeIndex.get first.data = none := by
    rw [← not_isSome_iff_eq_none, h.known]
    exact hfirst.2
  obtain ⟨left, hleft, hpop⟩ := popPendingChallengeToOutstanding_cons hpend nowNs timeoutNs
  subst hleft
  rw [hpop]
  exact
    { distinct := by
        have hperm : (left.activeConst ++
            (s.outstandingChallenges ++ [first.transmit nowNs timeoutNs])).Perm
            (first.transmit nowNs timeoutNs :: (left.activeConst ++ s.outstandingChallenges)) := by
          simp [← append_assoc]
        refine (hperm.map (·.data)).nodup_iff.mpr ?_
        rw [map_cons, nodup_cons, map_append, mem_append, not_or]
        rw [map_append] at hrest
        exact ⟨hfirst, hrest⟩
      pending := fun d => by
        show ((s.pendingChallengeIndex.remove first.data).get d).isSome = true ↔
          d ∈ left.activeConst.map (·.data)
        rw [Table.get_remove]
        have hmem := h.pending d
        rw [hpend, map_cons] at hmem
        by_cases hd : d = first.data
        · rw [hd]
          exact iff_of_false (by simp) hfirst.1
        · simp [hd, hmem]
      outstanding := by
        have hput : setIndex s.outstandingChallengeIndex first.data s.outstandingChallenges.length
            = s.outstandingChallengeIndex.put first.data s.outstandingChallenges.length := by
          simp [hnone, setIndex]
        show Positions _ (s.outstandingChallenges ++ [first.transmit nowNs timeoutNs])
          (setIndex s.outstandingChallengeIndex first.data s.outstandingChallenges.length)
        rw [hput]
        exact h.outstanding.append (by rw [hdata]) hnone
      unset := fun c hc => h.unset c (by rw [hpend]; exact mem_cons_of_mem _ hc)
      worn := h.worn
      responses := h.responses }

lemma Timed.popped (h : Timed s) (nowNs timeoutNs : Option Nat) :
    Timed (s.popPendingChallengeToOutstanding nowNs timeoutNs).2 := by
  unfold popPendingChallengeToOutstanding
  split
  · exact h
  · show considerDeadline s.earliestOutstandingDeadlineNs _ = earliestDeadline (_ ++ [_])
    rw [earliestDeadline_concat, h]

/-! ### Taking a challenge out -/

/-- The challenge is no longer outstanding; nothing else has changed, the cached deadline included. -/
structure Removed (s s' : PathValidation) (c : Challenge) : Prop where
  challenges : s.outstandingChallenges.Perm (c :: s'.outstandingChallenges)
  index : Positions (fun c : Challenge => [c.data]) s'.outstandingChallenges
    s'.outstandingChallengeIndex
  rest : s' = { s with
      outstandingChallenges := s'.outstandingChallenges
      outstandingChallengeIndex := s'.outstandingChallengeIndex }

/-- **The swap and the repair of the index.** -/
theorem removeOutstanding_removed (h : Sound s) {i : Nat}
    (hc : s.outstandingChallenges[i]? = some c) :
    Removed s (s.removeOutstandingChallengeDeferredDeadline i c).2 c := by
  refine ⟨swapRemove_perm hc, ?_, rfl⟩
  have hidx := h.outstanding.swapRemove hc
  have hlt := lt_of_getElem? hc
  have hsame : (s.removeOutstandingChallengeDeferredDeadline i c).2.outstandingChallengeIndex =
      refreshEntry (fun c : Challenge => [c.data]) (swapRemove s.outstandingChallenges i)
        (s.outstandingChallengeIndex.removeKeys [c.data]) i := by
    unfold removeOutstandingChallengeDeferredDeadline refreshEntry
    dsimp only
    by_cases hend : i ≠ s.outstandingChallenges.length - 1
    · rw [if_pos hend]
      cases (swapRemove s.outstandingChallenges i)[i]? with
      | none | some => rfl
    rw [if_neg hend]
    have hnone : (swapRemove s.outstandingChallenges i)[i]? = none := by
      rw [getElem?_swapRemove hlt, if_neg (by omega)]
    rw [hnone]
    rfl
  rw [hsame]
  exact hidx

lemma Removed.sound (hr : Removed s s' c) (h : Sound s) : Sound s' := by
  have hdist := h.distinct
  have hperm : (s.pendingChallenges.activeConst ++ s.outstandingChallenges).Perm
      (c :: (s.pendingChallenges.activeConst ++ s'.outstandingChallenges)) :=
    (hr.challenges.append_left _).trans perm_middle
  have hall := (hperm.map (·.data)).nodup_iff.mp hdist
  rw [map_cons, nodup_cons] at hall
  rw [hr.rest]
  exact
    { distinct := hall.2
      pending := h.pending
      outstanding := hr.index
      unset := h.unset
      worn := h.worn
      responses := h.responses }

lemma Removed.new (hr : Removed s s' c) (h : Sound s) : New s' c.data := by
  have hperm : (s.pendingChallenges.activeConst ++ s.outstandingChallenges).Perm
      (c :: (s.pendingChallenges.activeConst ++ s'.outstandingChallenges)) :=
    (hr.challenges.append_left _).trans perm_middle
  have hall := (hperm.map (·.data)).nodup_iff.mp h.distinct
  rw [map_cons, nodup_cons] at hall
  unfold New
  rw [hr.rest]
  exact hall.1

lemma removeOutstandingChallenge_spec (h : Sound s) {i : Nat}
    (hc : s.outstandingChallenges[i]? = some c) :
    ∃ s₁, Removed s s₁ c ∧
      (s.removeOutstandingChallenge i c = s₁ ∨
        s.removeOutstandingChallenge i c = s₁.recomputeOutstandingDeadline) ∧
      (Timed s → Timed (s.removeOutstandingChallenge i c)) := by
  have hremoved := removeOutstanding_removed h hc
  refine ⟨_, hremoved, ?_⟩
  unfold removeOutstandingChallenge
  rcases hcall : s.removeOutstandingChallengeDeferredDeadline i c with ⟨cached, s₁⟩
  rw [hcall] at hremoved
  have hcached : cached = (c.deadlineNs.isSome && c.deadlineNs == s.earliestOutstandingDeadlineNs) :=
    (congrArg Prod.fst hcall).symm
  cases cached with
  | true => exact ⟨.inr rfl, fun _ => rfl⟩
  | false =>
    refine ⟨.inl rfl, fun htimed => ?_⟩
    dsimp only at hremoved ⊢
    unfold Timed at htimed ⊢
    rw [htimed] at hcached
    rw [earliestDeadline_erase hremoved.challenges hcached.symm, ← htimed, hremoved.rest]

/-! ### Expiry -/

/-- It has been sent often enough. -/
def spent (s : PathValidation) (c : Challenge) : Bool := decide (s.maxChallengeTransmissions ≤ c.transmissions)

/-- The challenges have gone from outstanding to pending or failed. -/
structure Expired (s s' : PathValidation) (moved : List Challenge) : Prop where
  challenges : s.outstandingChallenges.Perm (moved ++ s'.outstandingChallenges)
  pending : s'.pendingChallenges.activeConst =
    s.pendingChallenges.activeConst ++ (moved.filter (fun c => !s.spent c)).map Challenge.idle
  failed : s'.failedChallenges = s.failedChallenges ++ (moved.filter s.spent).map Challenge.idle
  rest : s' = { s with
      pendingChallenges := s'.pendingChallenges
      outstandingChallenges := s'.outstandingChallenges
      failedChallenges := s'.failedChallenges
      pendingChallengeIndex := s'.pendingChallengeIndex
      outstandingChallengeIndex := s'.outstandingChallengeIndex }

lemma Expired.refl (s : PathValidation) : Expired s s [] :=
  ⟨Perm.refl _, (append_nil _).symm, (append_nil _).symm, rfl⟩

lemma Expired.trans {s'' : PathValidation} {xs ys : List Challenge} (h : Expired s s' xs)
    (h' : Expired s' s'' ys) : Expired s s'' (xs ++ ys) := by
  have hspent : s'.spent = s.spent := by
    funext c
    unfold spent
    rw [h.rest]
  refine ⟨?_, ?_, ?_, by rw [h'.rest, h.rest]⟩
  · rw [append_assoc]
    exact h.challenges.trans (h'.challenges.append_left xs)
  · rw [h'.pending, h.pending, hspent, filter_append, map_append, append_assoc]
  · rw [h'.failed, h.failed, hspent, filter_append, map_append, append_assoc]

lemma expireChallenge_spec (h : Sound s) {i : Nat} (hc : s.outstandingChallenges[i]? = some c) :
    ∃ s₁, s.expireChallenge i c =
        (c.deadlineNs.isSome && c.deadlineNs == s.earliestOutstandingDeadlineNs, s₁) ∧
      Expired s s₁ [c] ∧ Sound s₁ ∧
      s₁.outstandingChallenges = swapRemove s.outstandingChallenges i := by
  have hremoved := removeOutstanding_removed h hc
  have hsound := hremoved.sound h
  have hnew := hremoved.new h
  unfold expireChallenge
  by_cases hspent : s.maxChallengeTransmissions ≤ c.transmissions
  · rw [if_pos hspent]
    refine ⟨_, rfl, ⟨hremoved.challenges, ?_, ?_, rfl⟩, ?_, rfl⟩
    · have hyes : s.spent c = true := decide_eq_true hspent
      simp [hyes]
    · rw [filter_cons_of_pos (by exact decide_eq_true hspent)]
      rfl
    exact
      { distinct := hsound.distinct
        pending := hsound.pending
        outstanding := hsound.outstanding
        unset := hsound.unset
        worn := fun c' hc' => by
          rcases mem_append.mp hc' with hold | hlast
          · exact hsound.worn c' hold
          · simp [mem_singleton.mp hlast, hspent]
        responses := hsound.responses }
  rw [if_neg hspent]
  have hqueue : (s.pendingChallenges.append { c with deadlineNs := none }).activeConst =
      s.pendingChallenges.activeConst ++ [c.idle] := Fifo.activeConst_append
  refine ⟨_, rfl, ⟨hremoved.challenges, ?_, ?_, rfl⟩, ?_, rfl⟩
  · have hno : s.spent c = false := decide_eq_false hspent
    rw [filter_cons_of_pos (by rw [hno]; rfl)]
    exact hqueue
  · rw [filter_cons_of_neg (by exact fun hyes => hspent (of_decide_eq_true hyes))]
    exact (append_nil _).symm
  have hnone : s.pendingChallengeIndex.get c.data = none := by
    rw [← not_isSome_iff_eq_none]
    intro hsome
    have hmem := (hsound.pending c.data).mp hsome
    apply hnew
    rw [map_append]
    exact mem_append_left _ hmem
  exact
    { distinct := by
        rw [hqueue]
        have hperm : ((s.pendingChallenges.activeConst ++ [c.idle]) ++
            swapRemove s.outstandingChallenges i).Perm
            (c.idle :: (s.pendingChallenges.activeConst ++ swapRemove s.outstandingChallenges i)) := by
          simp
        refine (hperm.map (·.data)).nodup_iff.mpr ?_
        rw [map_cons, nodup_cons]
        exact ⟨hnew, hsound.distinct⟩
      pending := fun d => by
        have hold : (s.pendingChallengeIndex.get d).isSome = true ↔ _ := hsound.pending d
        rw [Table.get_put hnone, hqueue, map_append, mem_append]
        by_cases hd : d = c.data
        · rw [if_pos hd, hd]
          exact iff_of_true rfl (.inr (mem_singleton_self _))
        rw [if_neg hd, hold]
        have hne : d ∉ [c.idle].map (·.data) := fun hmem => hd (mem_singleton.mp hmem)
        exact ⟨fun hin => .inl hin, fun hin => hin.resolve_right hne⟩
      outstanding := hsound.outstanding
      unset := fun c' hc' => by
        rw [hqueue] at hc'
        rcases mem_append.mp hc' with hold | hlast
        · exact hsound.unset c' hold
        · rw [mem_singleton.mp hlast]
          rfl
      worn := hsound.worn
      responses := hsound.responses }

/-! ### The sweep -/

/-- The challenges whose deadline has passed, in the order in which the sweep meets them. -/
def dueOrder (nowNs : Nat) : Nat → Nat → List Challenge → List Challenge
  | 0, _, _ => []
  | fuel + 1, i, challenges =>
    match challenges[i]? with
    | none => []
    | some c =>
      if c.due nowNs = false then dueOrder nowNs fuel (i + 1) challenges
      else c :: dueOrder nowNs fuel i (swapRemove challenges i)

section

variable {nowNs fuel i : Nat} {challenges : List Challenge} {c : Challenge}

lemma dueOrder_end (hc : challenges[i]? = none) : dueOrder nowNs (fuel + 1) i challenges = [] := by
  rw [dueOrder, hc]

lemma dueOrder_skip (hc : challenges[i]? = some c) (hdue : c.due nowNs = false) :
    dueOrder nowNs (fuel + 1) i challenges = dueOrder nowNs fuel (i + 1) challenges := by
  rw [dueOrder, hc]
  exact if_pos hdue

lemma dueOrder_take (hc : challenges[i]? = some c) (hdue : c.due nowNs ≠ false) :
    dueOrder nowNs (fuel + 1) i challenges =
      c :: dueOrder nowNs fuel i (swapRemove challenges i) := by
  rw [dueOrder, hc]
  exact if_neg hdue

/-- **The sweep meets every challenge whose deadline has passed, once.** -/
theorem dueOrder_perm (hfuel : fuel + i = challenges.length) :
    (dueOrder nowNs fuel i challenges).Perm ((challenges.drop i).filter (·.due nowNs)) := by
  induction fuel generalizing i challenges with
  | zero =>
    rw [List.drop_eq_nil_of_le (by omega)]
    exact List.Perm.refl _
  | succ fuel ih =>
    have hlt : i < challenges.length := by omega
    obtain ⟨c, hc⟩ : ∃ c, challenges[i]? = some c := ⟨_, List.getElem?_eq_getElem hlt⟩
    obtain ⟨_, hvalue⟩ := List.getElem_of_getElem? hc
    by_cases hdue : c.due nowNs = false
    · rw [dueOrder_skip hc hdue, List.drop_eq_getElem_cons hlt, hvalue,
        List.filter_cons_of_neg (by rw [hdue]; simp)]
      exact ih (by omega)
    have hyes : c.due nowNs = true := by simpa using hdue
    rw [dueOrder_take hc hdue]
    have hless : fuel + i = (swapRemove challenges i).length := by
      rw [length_swapRemove hlt]
      omega
    have hrest := ih hless
    have hdrop := (drop_swapRemove hc).filter (·.due nowNs)
    rw [List.filter_cons_of_pos (by exact hyes)] at hdrop
    exact (hrest.cons c).trans hdrop.symm

end

/-- Whether the challenge has the cached deadline. -/
def cachedDeadline (s : PathValidation) (c : Challenge) : Bool :=
  c.deadlineNs.isSome && c.deadlineNs == s.earliestOutstandingDeadlineNs

/-- What the sweep answers and leaves, where `s₁` is the state after the challenges it moved. -/
def sweepResult (s s₁ : PathValidation) (order : List Challenge) (room expired : Nat)
    (recompute : Bool) : Except Error Nat × PathValidation :=
  if order.length ≤ room then
    (.ok (expired + order.length),
      if recompute || order.any s.cachedDeadline then s₁.recomputeOutstandingDeadline else s₁)
  else (.error .outOfMemory, s₁)

lemma sweep_stop (h : Sound s) (room expired : Nat) (recompute : Bool) :
    ∃ s₁, Expired s s₁ (([] : List Challenge).take room) ∧ Sound s₁ ∧
      (.ok expired, if recompute then s.recomputeOutstandingDeadline else s) =
        sweepResult s s₁ [] room expired recompute := by
  refine ⟨s, by rw [take_nil]; exact Expired.refl s, h, ?_⟩
  simp [sweepResult]

/-- **What the sweep does,** with memory for `room` challenges. -/
theorem sweep_spec (nowNs fuel i room expired : Nat) (recompute : Bool) (h : Sound s)
    {order : List Challenge} (horder : dueOrder nowNs fuel i s.outstandingChallenges = order) :
    ∃ s₁, Expired s s₁ (order.take room) ∧ Sound s₁ ∧
      sweep nowNs fuel i room expired recompute s = sweepResult s s₁ order room expired recompute := by
  induction fuel generalizing s i room expired recompute order with
  | zero =>
    cases horder
    exact sweep_stop h room expired recompute
  | succ fuel ih =>
    unfold sweep
    cases hc : s.outstandingChallenges[i]? with
    | none =>
      rw [dueOrder_end hc] at horder
      cases horder
      exact sweep_stop h room expired recompute
    | some c =>
      dsimp only
      by_cases hdue : c.due nowNs = false
      · rw [dueOrder_skip hc hdue] at horder
        rw [if_pos hdue]
        exact ih _ _ _ _ h horder
      rw [dueOrder_take hc hdue] at horder
      rw [if_neg hdue]
      cases horder
      cases room with
      | zero =>
        refine ⟨s, by rw [take_zero]; exact Expired.refl s, h, ?_⟩
        simp [sweepResult]
      | succ room =>
        obtain ⟨s₁, hcall, hone, hsound, hlist⟩ := expireChallenge_spec h hc
        have hcached : s₁.cachedDeadline = s.cachedDeadline := by
          funext c'
          unfold cachedDeadline
          rw [hone.rest]
        obtain ⟨s₂, hmore, hsound', hsweep⟩ := ih i room (expired + 1)
          (recompute || s.cachedDeadline c) hsound (by rw [hlist])
        refine ⟨s₂, hone.trans hmore, hsound', ?_⟩
        rw [hcall]
        refine hsweep.trans ?_
        unfold sweepResult
        rw [hcached, length_cons, any_cons, Bool.or_assoc]
        simp only [Nat.succ_le_succ_iff, Nat.add_assoc, Nat.add_comm 1]

end PathValidation

end Netz.Quic
