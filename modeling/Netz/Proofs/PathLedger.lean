/-
Where every challenge is.

A run is checked against its own history: how often a challenge was queued anew, how often it
was answered, and how often it was sent.  What was queued is pending, outstanding or failed, or
was answered; and every transmission that a challenge counts is a frame that left.
-/
import Mathlib.Algebra.BigOperators.Group.List.Basic
import Netz.Proofs.PathRuns

namespace Netz.Quic.PathValidation

open Lib List

variable {s s' : PathValidation} {data d : PathData} {nowNs timeoutNs : Option Nat}

/-- All challenges that the state holds. -/
def challenges (s : PathValidation) : List Challenge :=
  s.pendingChallenges.activeConst ++ s.outstandingChallenges ++ s.failedChallenges

def tally (f : Challenge → Nat) (s : PathValidation) : Nat := (s.challenges.map f).sum

section

variable (f : Challenge → Nat)

lemma tally_eq (s : PathValidation) :
    tally f s = (s.pendingChallenges.activeConst.map f).sum + (s.outstandingChallenges.map f).sum +
      (s.failedChallenges.map f).sum := by
  unfold tally challenges
  rw [map_append, map_append, sum_append, sum_append]

lemma tally_removed {c : Challenge} (h : Removed s s' c) : tally f s = f c + tally f s' := by
  have hsum := (h.challenges.map f).sum_eq
  rw [map_cons, sum_cons] at hsum
  have hpend : s'.pendingChallenges = s.pendingChallenges := by rw [h.rest]
  have hfailed : s'.failedChallenges = s.failedChallenges := by rw [h.rest]
  rw [tally_eq, tally_eq, hpend, hfailed]
  omega

lemma tally_expired (hidle : ∀ c, f c.idle = f c) {moved : List Challenge} (h : Expired s s' moved) :
    tally f s' = tally f s := by
  have hblind : ∀ l : List Challenge, (l.map Challenge.idle).map f = l.map f := by
    intro l
    rw [map_map]
    exact map_congr_left (fun c _ => hidle c)
  have hout := (h.challenges.map f).sum_eq
  rw [map_append, sum_append] at hout
  have hsplit := ((filter_append_perm s.spent moved).map f).sum_eq
  rw [map_append, sum_append] at hsplit
  rw [tally_eq, tally_eq, h.pending, h.failed, map_append, map_append, hblind, hblind,
    sum_append, sum_append]
  omega

lemma tally_popped (nowNs timeoutNs : Option Nat) {first : Challenge} {rest : List Challenge}
    (hpend : s.pendingChallenges.activeConst = first :: rest) :
    tally f (s.popPendingChallengeToOutstanding nowNs timeoutNs).2 + f first =
      tally f s + f (first.transmit nowNs timeoutNs) := by
  obtain ⟨left, hleft, hpop⟩ := popPendingChallengeToOutstanding_cons hpend nowNs timeoutNs
  rw [hpop, tally_eq, tally_eq, hpend, ← hleft]
  show (left.activeConst.map f).sum + ((s.outstandingChallenges ++ [first.transmit nowNs timeoutNs]).map f).sum +
    (s.failedChallenges.map f).sum + f first = _
  rw [map_append, sum_append, map_singleton, sum_singleton, map_cons,
    sum_cons]
  omega

lemma tally_popPending (hsent : ∀ c : Challenge, f (c.transmit nowNs timeoutNs) = f c) (count : Nat) :
    tally f (s.popPending nowNs timeoutNs count).2 = tally f s := by
  induction count generalizing s with
  | zero => rfl
  | succ count ih =>
    cases hpend : s.pendingChallenges.activeConst with
    | nil => rw [popPending_nil hpend]
    | cons first rest =>
      have hone := tally_popped f nowNs timeoutNs hpend
      rw [hsent] at hone
      rw [popPending_cons hpend, ih]
      omega

end

/-! ### Copies and transmissions -/

/-- How many of the challenges carry the data. -/
def copies (d : PathData) (cs : List Challenge) : Nat := cs.countP (fun c => c.data == d)

def isCopy (d : PathData) (c : Challenge) : Nat := if c.data = d then 1 else 0

/-- How often the challenge counts itself sent, if it carries the data. -/
def timesSent (d : PathData) (c : Challenge) : Nat := if c.data = d then c.transmissions else 0

lemma sum_isCopy (d : PathData) (cs : List Challenge) : (cs.map (isCopy d)).sum = copies d cs := by
  unfold copies
  induction cs with
  | nil => rfl
  | cons c rest ih =>
    simp [ih, countP_cons, Nat.add_comm, isCopy]

/-- Every challenge that counts transmissions was sent as often. -/
theorem popPending_timesSent (d : PathData) (count : Nat) :
    tally (timesSent d) (s.popPending nowNs timeoutNs count).2 ≤
      tally (timesSent d) s + (s.popPending nowNs timeoutNs count).1.count d := by
  induction count generalizing s with
  | zero => exact le_rfl
  | succ count ih =>
    cases hpend : s.pendingChallenges.activeConst with
    | nil => simp [popPending_nil hpend]
    | cons first rest =>
      have hone := tally_popped (timesSent d) nowNs timeoutNs hpend
      have hmore := ih (s := (s.popPendingChallengeToOutstanding nowNs timeoutNs).2)
      have hsent : timesSent d (first.transmit nowNs timeoutNs) ≤
          timesSent d first + if first.data = d then 1 else 0 := by
        unfold timesSent Challenge.transmit
        dsimp only
        split
        · exact Nat.min_le_left _ _
        · exact le_rfl
      rw [popPending_cons hpend, count_cons]
      simp only [beq_iff_eq]
      omega

/-! ### The history -/

abbrev PathEvent := Event PathValidation Op (Except Error Reply)

/-- The call queued the challenge anew. -/
def queuedIn (d : PathData) (e : PathEvent) : Nat :=
  match e.input with
  | .queueChallenge data memory => if data = d ∧ New e.pre data ∧ memory = true then 1 else 0
  | _ => 0

/-- The call took an answer to the challenge. -/
def answeredIn (d : PathData) (e : PathEvent) : Nat :=
  match e.input, e.output with
  | .receiveResponseValidated data, .ok (.validated known) =>
    if data = d ∧ known = true then 1 else 0
  | _, _ => 0

/-- How many frames with the challenge the call handed out. -/
def sentIn (d : PathData) (e : PathEvent) : Nat :=
  match e.output with
  | .ok (.frames frames) => frames.count d
  | _ => 0

/-- What one call does to the copies of a challenge, and to what they count. -/
structure Balances (s : PathValidation) (op : Op) (d : PathData) : Prop where
  copies : tally (isCopy d) s + queuedIn d (event step s op) =
    tally (isCopy d) (s.step op).2 + answeredIn d (event step s op)
  sent : tally (timesSent d) (s.step op).2 ≤ tally (timesSent d) s + sentIn d (event step s op)
  limit : (s.step op).2.maxChallengeTransmissions = s.maxChallengeTransmissions

lemma Balances.idle {op : Op} (hchallenges : (s.step op).2.challenges = s.challenges)
    (hlim : (s.step op).2.maxChallengeTransmissions = s.maxChallengeTransmissions)
    (hqueued : queuedIn d (event step s op) = 0) (hanswered : answeredIn d (event step s op) = 0) :
    Balances s op d := by
  have hsame : ∀ f, tally f (s.step op).2 = tally f s := by simp [hchallenges, tally]
  refine ⟨?_, ?_, hlim⟩
  · rw [hqueued, hanswered, hsame]
  · simp [hsame]

lemma popPending_limit (count : Nat) :
    (s.popPending nowNs timeoutNs count).2.maxChallengeTransmissions = s.maxChallengeTransmissions := by
  induction count generalizing s with
  | zero => rfl
  | succ count ih =>
    cases hpend : s.pendingChallenges.activeConst with
    | nil => rw [popPending_nil hpend]
    | cons first rest =>
      obtain ⟨left, -, hpop⟩ := popPendingChallengeToOutstanding_cons hpend nowNs timeoutNs
      rw [popPending_cons hpend, ih, hpop]
      rfl

lemma discardResponses_rest (count : Nat) :
    (s.discardResponses count).challenges = s.challenges ∧
      (s.discardResponses count).maxChallengeTransmissions = s.maxChallengeTransmissions := by
  induction count generalizing s with
  | zero => exact ⟨rfl, rfl⟩
  | succ count ih =>
    unfold discardResponses nextResponseFrame
    cases s.pendingResponses.popFront with
    | none => exact ⟨rfl, rfl⟩
    | some popped => exact ih

/-- A call that sends the oldest pending challenges. -/
lemma Balances.sending {op : Op} {count : Nat}
    (hstate : (s.step op).2 = (s.popPending nowNs timeoutNs count).2)
    (hqueued : queuedIn d (event step s op) = 0) (hanswered : answeredIn d (event step s op) = 0)
    (hsent : sentIn d (event step s op) = (s.popPending nowNs timeoutNs count).1.count d) :
    Balances s op d := by
  refine ⟨?_, ?_, by rw [hstate, popPending_limit]⟩
  · rw [hstate, hqueued, hanswered, tally_popPending _ (fun _ => rfl)]
  · rw [hstate, hsent]
    exact popPending_timesSent d count

lemma queueChallenge_balances (h : Sound s) (memory : Bool) :
    Balances s (.queueChallenge data memory) d := by
  rcases queueChallenge_cases h data memory with ⟨hnew, hmemory, hcall⟩ | ⟨hnot, hsame⟩
  · have hstate : (s.step (.queueChallenge data memory)).2 = (s.queueChallenge data memory).2 := rfl
    have hadded : ∀ f, tally f (s.step (.queueChallenge data memory)).2 =
        tally f s + f { data := data } := by
      intro f
      rw [hstate, hcall, tally_eq, tally_eq]
      dsimp only
      rw [Fifo.activeConst_append, map_append, sum_append, map_singleton, sum_singleton]
      omega
    refine ⟨?_, ?_, by rw [hstate, hcall]⟩
    · rw [hadded]
      show _ + (if data = d ∧ New s data ∧ memory = true then 1 else 0) =
        _ + (if data = d then 1 else 0) + 0
      by_cases hd : data = d
      · rw [if_pos ⟨hd, hnew, hmemory⟩, if_pos hd]
      · rw [if_neg (fun hall => hd hall.1), if_neg hd]
    · simp [hadded, timesSent]
  have hstate : (s.step (.queueChallenge data memory)).2 = s := hsame
  refine Balances.idle (by rw [hstate]) (by rw [hstate]) ?_ rfl
  show (if data = d ∧ New s data ∧ memory = true then 1 else 0) = 0
  rw [if_neg (fun hall => hnot hall.2)]

lemma receiveResponseValidated_balances (h : Sound s) :
    Balances s (.receiveResponseValidated data) d := by
  have hstate : (s.step (.receiveResponseValidated data)).2 = (s.receiveResponseValidated data).2 :=
    rfl
  have hans : answeredIn d (event step s (.receiveResponseValidated data)) =
      if data = d ∧ (s.receiveResponseValidated data).1 = true then 1 else 0 := rfl
  rcases receiveResponseValidated_cases h data with
    ⟨hsame, -⟩ | ⟨c, s₁, hdata, hremoved, hknown, hfinal, -⟩
  · refine Balances.idle (by rw [hstate, hsame]) (by rw [hstate, hsame]) rfl ?_
    rw [hans, hsame, if_neg (by simp)]
  have htally : ∀ f, tally f s = f c + tally f (s.receiveResponseValidated data).2 := by
    intro f
    rw [tally_removed f hremoved]
    rcases hfinal with hfinal | hfinal <;> rw [hfinal]
    rfl
  have hlim : (s.receiveResponseValidated data).2.maxChallengeTransmissions =
      s.maxChallengeTransmissions := by
    rcases hfinal with hfinal | hfinal
    · rw [hfinal, hremoved.rest]
    rw [hfinal]
    show s₁.maxChallengeTransmissions = _
    rw [hremoved.rest]
  refine ⟨?_, ?_, by rw [hstate, hlim]⟩
  · rw [hstate, hans, htally, hknown]
    show isCopy d c + _ + 0 = _
    unfold isCopy
    rw [hdata]
    by_cases hd : data = d
    · rw [if_pos hd, if_pos ⟨hd, rfl⟩]
      omega
    · rw [if_neg hd, if_neg (fun hall => hd hall.1)]
      omega
  · rw [hstate, htally]
    omega

/-- A sweep moves challenges between the lists; it queues, answers and sends none. -/
lemma checkTimeouts_balances (h : Sound s) (nowNs room : Nat) :
    Balances s (.checkTimeouts nowNs room) d := by
  have hstate : (s.step (.checkTimeouts nowNs room)).2 = (s.checkTimeouts nowNs room).2 := rfl
  have hsilent : sentIn d (event step s (.checkTimeouts nowNs room)) = 0 := by
    unfold sentIn event step answer
    dsimp only
    cases (s.checkTimeouts nowNs room).1 with
    | error | ok => rfl
  rcases checkTimeouts_cases h nowNs room with hsame | ⟨s₁, moved, hexp, -, hfinal⟩
  · exact Balances.idle (by rw [hstate, hsame]) (by rw [hstate, hsame]) rfl rfl
  have htally : ∀ f : Challenge → Nat, (∀ c, f c.idle = f c) →
      tally f (s.checkTimeouts nowNs room).2 = tally f s := by
    intro f hidle
    rw [← tally_expired f hidle hexp]
    rcases hfinal with hfinal | hfinal <;> rw [hfinal]
    rfl
  refine ⟨?_, ?_, ?_⟩
  · rw [hstate, htally _ (fun _ => rfl)]
    rfl
  · rw [hstate, htally _ (fun _ => rfl), hsilent]
    exact le_rfl
  rw [hstate]
  rcases hfinal with hfinal | hfinal
  · rw [hfinal, hexp.rest]
  rw [hfinal]
  show s₁.maxChallengeTransmissions = _
  rw [hexp.rest]

/-- **Every call accounts for the challenges it moves.** -/
theorem step_balances (h : Sound s) (op : Op) (d : PathData) : Balances s op d := by
  cases op with
  | queueChallenge data memory => exact queueChallenge_balances h memory
  | nextChallengeFrameAt nowNs timeoutNs memory =>
    have hstate : (s.step (.nextChallengeFrameAt nowNs timeoutNs memory)).2 =
      (s.nextChallengeFrameAt nowNs timeoutNs memory).2 := rfl
    rcases nextChallengeFrameAt_sends s nowNs timeoutNs memory with hsame | ⟨hpop, hframes⟩
    · exact Balances.idle (by rw [hstate, hsame]) (by rw [hstate, hsame]) rfl rfl
    · refine Balances.sending (by rw [hstate, hpop]) rfl rfl ?_
      simp [hframes, sentIn, event, step, answer]
  | nextChallengeFramesAt out nowNs timeoutNs memory =>
    have hstate : (s.step (.nextChallengeFramesAt out nowNs timeoutNs memory)).2 =
      (s.nextChallengeFramesAt out nowNs timeoutNs memory).2 := rfl
    rcases nextChallengeFramesAt_sends s out nowNs timeoutNs memory with hsame | ⟨hpop, hframes⟩
    · exact Balances.idle (by rw [hstate, hsame]) (by rw [hstate, hsame]) rfl rfl
    · refine Balances.sending (by rw [hstate, hpop]) rfl rfl ?_
      unfold sentIn event step answer
      dsimp only
      rw [hframes]
      rfl
  | receiveResponseValidated data => exact receiveResponseValidated_balances h
  | checkTimeouts nowNs room => exact checkTimeouts_balances h nowNs room
  | receiveChallenge data memory =>
    have hrest : (s.receiveChallenge data memory).2.challenges = s.challenges ∧
        (s.receiveChallenge data memory).2.maxChallengeTransmissions =
          s.maxChallengeTransmissions := by
      unfold receiveChallenge
      split
      · exact ⟨rfl, rfl⟩
      · split <;> exact ⟨rfl, rfl⟩
    exact Balances.idle hrest.1 hrest.2 rfl rfl
  | nextResponseFrame =>
    refine Balances.idle ?_ ?_ rfl rfl
    · show s.nextResponseFrame.2.challenges = _
      unfold nextResponseFrame
      split <;> rfl
    show s.nextResponseFrame.2.maxChallengeTransmissions = _
    unfold nextResponseFrame
    split <;> rfl
  | discardResponses count =>
    exact Balances.idle (discardResponses_rest count).1 (discardResponses_rest count).2 rfl rfl
  | clone memory =>
    have hrest : (s.step (.clone memory)).2.challenges = s.challenges ∧
        (s.step (.clone memory)).2.maxChallengeTransmissions = s.maxChallengeTransmissions := by
      unfold step PathValidation.clone
      dsimp only
      split
      · exact ⟨rfl, rfl⟩
      rename_i copy hcopy
      split at hcopy
      · cases hcopy
      · cases hcopy
        exact ⟨rfl, rfl⟩
    exact Balances.idle hrest.1 hrest.2 rfl rfl

end Netz.Quic.PathValidation

/-! ### The invariant of `path_validation.State` over whole runs

A challenge is one queueing of its data: the same data may be queued again once the challenge
before it has failed or was answered.  The invariant holds in every state of a run exactly when
no timeout sweep of the run is torn. -/

namespace Netz.Quic.PathValidation

open Lib List

variable {s : PathValidation}

/-- What a run has made of its challenges. -/
structure Accounted (limit : Nat) (history : List PathEvent) (s : PathValidation) : Prop where
  /-- What was queued is pending, outstanding, failed or answered, and it is so once. -/
  placed : ∀ d, (history.map (queuedIn d)).sum =
    copies d s.pendingChallenges.activeConst + copies d s.outstandingChallenges +
      copies d s.failedChallenges + (history.map (answeredIn d)).sum
  /-- At most one challenge with the data is under way. -/
  single : ∀ d, copies d s.pendingChallenges.activeConst + copies d s.outstandingChallenges ≤ 1
  index : ∀ d i, s.outstandingChallengeIndex.get d = some i ↔
    s.outstandingChallenges[i]?.map (·.data) = some d
  earliest : s.earliestOutstandingDeadlineNs =
    (s.outstandingChallenges.filterMap (·.deadlineNs)).min?
  worn : ∀ c ∈ s.failedChallenges, limit ≤ c.transmissions
  /-- Whatever failed was handed out as often as the limit says. -/
  sent : ∀ d, limit * copies d s.failedChallenges ≤ (history.map (sentIn d)).sum

/-- What holds after every call, torn sweeps or not. -/
structure Booked (limit : Nat) (history : List PathEvent) (s : PathValidation) : Prop where
  sound : Sound s
  limit : s.maxChallengeTransmissions = limit
  placed : ∀ d, (history.map (queuedIn d)).sum =
    tally (isCopy d) s + (history.map (answeredIn d)).sum
  sent : ∀ d, tally (timesSent d) s ≤ (history.map (sentIn d)).sum

lemma booked_init (limit : Nat) : Booked limit [] { maxChallengeTransmissions := limit } :=
  ⟨sound_init limit, rfl, fun _ => rfl, fun _ => le_rfl⟩

lemma Booked.step {limit : Nat} {history : List PathEvent} (h : Booked limit history s) (op : Op) :
    Booked limit (history ++ [event step s op]) (s.step op).2 := by
  have hsum : ∀ f : PathEvent → Nat, ((history ++ [event PathValidation.step s op]).map f).sum =
      (history.map f).sum + f (event PathValidation.step s op) := by simp
  refine ⟨h.sound.step op, ?_, fun d => ?_, fun d => ?_⟩
  · rw [(step_balances h.sound op 0).limit, h.limit]
  · have hone := (step_balances h.sound op d).copies
    have hpre := h.placed d
    rw [hsum, hsum]
    omega
  have hone := (step_balances h.sound op d).sent
  have hpre := h.sent d
  rw [hsum]
  omega

/-- **Every run keeps its books.** -/
theorem run_booked (limit : Nat) (ops : List Op) :
    Booked limit (trace step { maxChallengeTransmissions := limit } ops)
      (exec step { maxChallengeTransmissions := limit } ops) :=
  trace_induction step (fun _ _ => True) (Booked limit) (booked_init limit)
    (fun _ _ op h _ => h.step op) ops (fun _ _ => trivial)

lemma Sound.single (h : Sound s) (d : PathData) :
    copies d s.pendingChallenges.activeConst + copies d s.outstandingChallenges ≤ 1 := by
  have hcount := nodup_iff_count_le_one.mp h.distinct d
  rw [map_append, count_append, count_eq_countP, countP_map, count_eq_countP,
    countP_map] at hcount
  exact hcount

lemma worn_sent {limit : Nat} {failed : List Challenge}
    (hworn : ∀ c ∈ failed, limit ≤ c.transmissions) (d : PathData) :
    limit * copies d failed ≤ (failed.map (timesSent d)).sum := by
  induction failed with
  | nil => exact le_rfl
  | cons c rest ih =>
    have hrest := ih (fun c' hc' => hworn c' (mem_cons_of_mem c hc'))
    have hfirst := hworn c mem_cons_self
    rw [map_cons, ← sum_isCopy, map_cons, sum_cons, sum_isCopy, Nat.mul_add]
    have hone : limit * isCopy d c ≤ timesSent d c := by
      unfold isCopy timesSent
      split
      · omega
      · exact le_rfl
    exact Nat.add_le_add hone hrest

lemma Booked.accounted {limit : Nat} {history : List PathEvent} (h : Booked limit history s)
    (ht : Timed s) : Accounted limit history s := by
  have hworn : ∀ c ∈ s.failedChallenges, limit ≤ c.transmissions := by
    intro c hc
    have hlim := h.sound.worn c hc
    rw [h.limit] at hlim
    exact hlim
  refine ⟨fun d => ?_, h.sound.single, h.sound.index, ?_, hworn, fun d => ?_⟩
  · have hplaced := h.placed d
    simp [tally_eq, sum_isCopy, hplaced]
  · rw [← earliestDeadline_eq]
    exact ht
  have hsent := h.sent d
  rw [tally_eq] at hsent
  have hfailed := worn_sent hworn d
  omega

/-- **The cached deadline of a whole run.** -/
theorem run_timed (limit : Nat) (ops : List Op)
    (huntorn : ∀ e ∈ trace step { maxChallengeTransmissions := limit } ops, Untorn e.pre e.input) :
    Timed (exec step { maxChallengeTransmissions := limit } ops) := by
  have hinit : Sound { maxChallengeTransmissions := limit } ∧
      Timed { maxChallengeTransmissions := limit } := ⟨sound_init limit, rfl⟩
  have hboth := trace_induction step Untorn (fun _ s => Sound s ∧ Timed s) hinit
    (fun _ s op h hop => ⟨h.1.step op, h.2.step h.1 op hop⟩) ops huntorn
  exact hboth.2

/-- A call that keeps the cached deadline is no torn sweep. -/
theorem untorn_of_timed (h : Sound s) (ht : Timed s) {op : Op} (hafter : Timed (s.step op).2) :
    Untorn s op := by
  cases op with
  | checkTimeouts nowNs room => exact (checkTimeouts_timed_iff h ht nowNs room).mp hafter
  | _ => trivial

/-- **The invariant holds throughout a run exactly when no sweep of the run is torn.** -/
theorem run_accounted_iff (limit : Nat) (ops : List Op) :
    (∀ n, Accounted limit
        (trace step { maxChallengeTransmissions := limit } (ops.take n))
        (exec step { maxChallengeTransmissions := limit } (ops.take n))) ↔
      ∀ e ∈ trace step { maxChallengeTransmissions := limit } ops, Untorn e.pre e.input := by
  constructor
  · intro haccounted e he
    have htimed : ∀ n, Timed (exec step { maxChallengeTransmissions := limit } (ops.take n)) := by
      intro n
      unfold Timed
      rw [earliestDeadline_eq]
      exact (haccounted n).earliest
    obtain ⟨n, op, hop, hevent⟩ := mem_trace he
    have hafter := htimed (n + 1)
    rw [exec_take_succ hop] at hafter
    rw [hevent]
    exact untorn_of_timed (run_booked limit (ops.take n)).sound (htimed n) hafter
  intro huntorn n
  refine (run_booked limit (ops.take n)).accounted (run_timed limit _ fun e he => ?_)
  rw [trace_take] at he
  exact huntorn e (mem_of_mem_take he)

/-- A challenge is queued and sent at once, and is due 50 after the one before it. -/
def sendChallenge (i : Nat) : List Op :=
  [.queueChallenge (Vector.replicate 8 (UInt8.ofNat i)) true,
    .nextChallengeFrameAt (some 100) (some (50 * i)) true]

/-- The queue never held more than one of four challenges.  A sweep puts two into the memory that
it kept and finds none for the third, and the first deadline stays cached. -/
theorem torn_sweep_keeps_deadline :
    ∃ s, s = exec step {} ([1, 2, 3, 4].flatMap sendChallenge ++ [.checkTimeouts 300 2]) ∧
      (s.outstandingChallenges.filterMap (·.deadlineNs)).min? = some 200 ∧
      s.earliestOutstandingDeadlineNs = some 150 :=
  ⟨_, rfl, by decide, by decide⟩

end Netz.Quic.PathValidation
