/-
A peer connection id pool over whole runs.

`Moves` says what one call does to the retire queue: what it sends leaves the front and what
it retires joins the end, unless it is waiting there already.  With `Sound` along the run
this adds up to a ledger: everything retired is sent or still waits, in the order in which
it was retired, and nothing twice unless the peer announces again, below its own Retire
Prior To, an id whose retirement was already sent.
-/
import Netz.Proofs.PeerPool

namespace Netz.Quic

open Lib List

namespace PeerPool

variable {pool pool' : PeerPool}

/-- Nothing was retired yet, and the slots behind the first hold nothing in use and nothing
that shares a name with the initial id. -/
def TakesInitial (pool : PeerPool) (connectionId : Bytes) : Prop :=
  pool.largestRetirePriorTo = 0 ∧
    ∀ entry ∈ pool.entries.tail, entry.occupied = true →
      entry.inUse = false ∧ entry.sequenceNumber ≠ 0 ∧ entry.connectionId ≠ connectionId ∧
        entry.statelessResetToken ≠ zeroToken

/-- The calls that cannot break the pool. -/
def Regular (pool : PeerPool) : Op → Prop
  | .addInitial connectionId =>
    maxConnectionIdLen < connectionId.length ∨ TakesInitial pool connectionId
  | .addWithLimit sequenceNumber _ _ _ => pool.largestRetirePriorTo ≤ sequenceNumber
  | .addWithRetirePriorTo frame _ =>
    frame.sequenceNumber < frame.retirePriorTo ∨ RetireRoom pool frame.retirePriorTo
  | .retirePriorTo sequenceNumber => RetireRoom pool sequenceNumber
  | _ => True

instance (pool : PeerPool) (connectionId : Bytes) : Decidable (TakesInitial pool connectionId) :=
  inferInstanceAs (Decidable (_ ∧ _))

instance (pool : PeerPool) (bound : Nat) : Decidable (RetireRoom pool bound) :=
  inferInstanceAs (Decidable (_ ∨ _ ∨ _))

instance (pool : PeerPool) (op : Op) : Decidable (Regular pool op) :=
  match op with
  | .addInitial _ => inferInstanceAs (Decidable (_ ∨ _))
  | .addWithLimit .. => inferInstanceAs (Decidable (_ ≤ _))
  | .addWithRetirePriorTo .. => inferInstanceAs (Decidable (_ ∨ _))
  | .retirePriorTo _ => inferInstanceAs (Decidable (RetireRoom _ _))
  | .consumeUnused => .isTrue trivial
  | .markInUse _ => .isTrue trivial
  | .discardRetireFrame => .isTrue trivial

abbrev Call := Event PeerPool Op (Except Error Unit)

/-- The retirements a call asks for: what its bound covers, and an id that arrives stale. -/
def asked (pool : PeerPool) : Op → List Nat
  | .retirePriorTo bound => pool.covered bound
  | .addWithRetirePriorTo frame _ =>
    if frame.sequenceNumber < frame.retirePriorTo then []
    else
      pool.covered frame.retirePriorTo ++
        (if frame.sequenceNumber < pool.largestRetirePriorTo then [frame.sequenceNumber] else [])
  | _ => []

/-- Those that are not refused for want of room. -/
def retirements (e : Call) : List Nat :=
  match e.output with
  | .error .retireQueueFull => []
  | _ => asked e.pre e.input

lemma retirements_eq {e : Call} (h : e.output ≠ .error .retireQueueFull) :
    retirements e = asked e.pre e.input := by simp [retirements]

/-- Those that were not waiting already. -/
def entered (e : Call) : List Nat := (retirements e).filter (fun s => s ∉ e.pre.pending)

/-- The retirement a call takes off the queue. -/
def delivered (e : Call) : List Nat :=
  match e.input with
  | .discardRetireFrame => e.pre.retireQueue.front.toList
  | _ => []

/-- A stale announcement of `s`. -/
def Announces (e : Call) (s : Nat) : Prop :=
  ∃ frame limit, e.input = .addWithRetirePriorTo frame limit ∧ frame.sequenceNumber = s ∧
    s < e.pre.largestRetirePriorTo

/-- What one call does to the retire queue, and what a refused one leaves. -/
structure Moves (e : Call) : Prop where
  pending : delivered e ++ e.post.pending = e.pre.pending ++ entered e
  largest : e.pre.largestRetirePriorTo ≤ e.post.largestRetirePriorTo
  bounded : ∀ s ∈ retirements e, s < e.post.largestRetirePriorTo
  once : (entered e).Nodup
  fresh : ∀ s ∈ entered e, e.pre.largestRetirePriorTo ≤ s ∨ Announces e s
  refused : ∀ err, e.output = .error err → e.post = e.pre ∨
    ∃ frame limit, e.input = .addWithRetirePriorTo frame limit ∧
      e.pre.retirePriorTo frame.retirePriorTo = (.ok (), e.post)

lemma Moves.still {e : Call} (hdelivered : delivered e = []) (hret : retirements e = [])
    (hqueue : e.post.retireQueue = e.pre.retireQueue)
    (hmax : e.post.largestRetirePriorTo = e.pre.largestRetirePriorTo)
    (hrefused : ∀ err, e.output = .error err → e.post = e.pre) : Moves e := by
  have hentered : entered e = [] := by
    rw [entered, hret]
    rfl
  refine ⟨?_, by rw [hmax], ?_, ?_, ?_, fun err he => .inl (hrefused err he)⟩
  · rw [hdelivered, hentered, PeerPool.pending, hqueue, append_nil]
    rfl
  · simp [hret]
  · simp [hentered]
  · simp [hentered]

/-! ### One call -/

lemma Sound.initial (h : Sound pool) {connectionId : Bytes}
    (hfirst : TakesInitial pool connectionId) (hentries : pool'.entries = pool.entries.set 0
      { connectionId := connectionId, occupied := true, inUse := true })
    (hcount : pool'.inUseCount = 1) (hqueue : pool'.retireQueue = pool.retireQueue)
    (hmax : pool'.largestRetirePriorTo = pool.largestRetirePriorTo) : Sound pool' := by
  obtain ⟨hzero, hothers⟩ := hfirst
  have hsize := h.size
  cases hslots : pool.entries with
  | nil =>
    rw [hslots] at hsize
    exact absurd hsize (by decide)
  | cons first rest =>
    rw [hslots] at hothers hsize
    rw [hslots, set_cons_zero] at hentries
    have hactive : pool'.active =
        { connectionId := connectionId, occupied := true, inUse := true } ::
          rest.filter (·.occupied) := by
      rw [active, hentries]
      rfl
    have hsub : (rest.filter (·.occupied)).Sublist pool.active := by
      rw [active, hslots]
      exact (sublist_cons_self first rest).filter _
    have hpend : pool'.pending = pool.pending := congrArg Ring.toList hqueue
    have hnew : ∀ entry ∈ rest.filter (·.occupied), entry.inUse = false ∧
        entry.sequenceNumber ≠ 0 ∧ entry.connectionId ≠ connectionId ∧
          entry.statelessResetToken ≠ zeroToken := by
      intro entry hmem
      obtain ⟨hent, hocc⟩ := mem_filter.mp hmem
      exact hothers entry hent hocc
    refine ⟨by rw [hentries]; exact hsize, ?_, ?_, ?_, ?_, ?_, hpend ▸ h.queued, ?_⟩
    · rw [hactive, map_cons, nodup_cons]
      refine ⟨fun hmem => ?_, h.sequenceNumbers.sublist (hsub.map _)⟩
      obtain ⟨entry, hent, heq⟩ := mem_map.mp hmem
      exact (hnew entry hent).2.1 heq
    · rw [hactive, map_cons, nodup_cons]
      refine ⟨fun hmem => ?_, h.connectionIds.sublist (hsub.map _)⟩
      obtain ⟨entry, hent, heq⟩ := mem_map.mp hmem
      exact (hnew entry hent).2.2.1 heq
    · rw [hactive, map_cons, nodup_cons]
      refine ⟨fun hmem => ?_, h.tokens.sublist (hsub.map _)⟩
      obtain ⟨entry, hent, heq⟩ := mem_map.mp hmem
      exact (hnew entry hent).2.2.2 heq
    · omega
    · have hnone : rest.countP used = 0 := by
        apply countP_eq_zero.mpr
        intro entry hmem huse
        obtain ⟨hocc, huse'⟩ := Bool.and_eq_true _ _ ▸ huse
        have hno := (hothers entry hmem hocc).1
        simp [hno] at huse'
      rw [hcount, hentries, countP_cons, hnone]
      rfl
    · rw [hpend, hmax]
      exact h.retired

lemma Sound.stepInitial (h : Sound pool) (connectionId : Bytes)
    (hreg : Regular pool (.addInitial connectionId)) :
    Sound (pool.step (.addInitial connectionId)).2 ∧
      Moves (event step pool (.addInitial connectionId)) := by
  have hadd : pool.addInitial connectionId =
      if maxConnectionIdLen < connectionId.length then .error .invalidConnectionId
      else .ok { pool with
        entries := pool.entries.set 0
          { connectionId := connectionId, occupied := true, inUse := true }
        inUseCount := 1 } := rfl
  by_cases hlong : maxConnectionIdLen < connectionId.length
  · rw [if_pos hlong] at hadd
    have hstep : pool.step (.addInitial connectionId) = (.error .invalidConnectionId, pool) := by
      rw [step, hadd]
    rw [event, hstep]
    exact ⟨h, Moves.still rfl rfl rfl rfl (fun _ _ => rfl)⟩
  rw [if_neg hlong] at hadd
  have hstep : pool.step (.addInitial connectionId) = (.ok (), { pool with
      entries := pool.entries.set 0
        { connectionId := connectionId, occupied := true, inUse := true }
      inUseCount := 1 }) := by
    rw [step, hadd]
  rw [event, hstep]
  refine ⟨h.initial (hreg.resolve_left hlong) rfl rfl rfl rfl, ?_⟩
  exact Moves.still rfl rfl rfl rfl (fun _ he => by simp at he)

lemma addWithLimit_frame (pool : PeerPool) (sequenceNumber : Nat) (connectionId : Bytes)
    (token : ResetToken) (activeLimit : Nat) :
    (pool.addWithLimit sequenceNumber connectionId token activeLimit).2.retireQueue
        = pool.retireQueue ∧
      (pool.addWithLimit sequenceNumber connectionId token activeLimit).2.largestRetirePriorTo
        = pool.largestRetirePriorTo ∧
      (pool.addWithLimit sequenceNumber connectionId token activeLimit).1
        ≠ .error .retireQueueFull := by
  unfold addWithLimit
  by_cases hlen : connectionId.length = 0 ∨ maxConnectionIdLen < connectionId.length
  · rw [if_pos hlen]
    simp
  rw [if_neg hlen]
  cases pool.entries.find? (fun e => e.occupied && e.sequenceNumber == sequenceNumber) with
  | some old =>
    dsimp only
    split
    · simp
    · split <;> simp
  | none =>
    rcases hslot : pool.availableAddSlot connectionId token activeLimit with e | slot
    · refine ⟨rfl, rfl, ?_⟩
      unfold availableAddSlot at hslot
      dsimp only at hslot ⊢
      intro he
      rw [Except.error.injEq] at he
      subst he
      split at hslot
      · simp at hslot
      split at hslot
      · simp at hslot
      · split at hslot <;> simp at hslot
    cases slot with
    | none | some => simp

/-- A call that retires what a bound covers, whatever it then does to the slots. -/
theorem Sound.moves_retired (h : Sound pool) {e : Call} {bound : Nat} (hpre : e.pre = pool)
    (hpend : e.post.pending = pool.pending ++ pool.covered bound)
    (hmax : e.post.largestRetirePriorTo = max pool.largestRetirePriorTo bound)
    (hdelivered : delivered e = []) (hret : retirements e = pool.covered bound)
    (hrefused : ∀ err, e.output = .error err → e.post = e.pre ∨
      ∃ frame limit, e.input = .addWithRetirePriorTo frame limit ∧
        e.pre.retirePriorTo frame.retirePriorTo = (.ok (), e.post)) : Moves e := by
  have hnew : ∀ s ∈ pool.covered bound,
      s ∉ pool.pending ∧ pool.largestRetirePriorTo ≤ s ∧ s < bound := by
    intro s hs
    obtain ⟨entry, hmem, hseq⟩ := mem_map.mp hs
    obtain ⟨hactive, hlt⟩ := covered_active hmem
    rw [← hseq]
    exact ⟨h.apart hactive, h.kept entry hactive, hlt⟩
  have hentered : entered e = pool.covered bound := by
    rw [entered, hret, hpre]
    apply filter_eq_self.mpr
    intro s hs
    exact decide_eq_true (hnew s hs).1
  refine ⟨?_, ?_, ?_, ?_, ?_, hrefused⟩
  · rw [hdelivered, hentered, hpend, hpre, nil_append]
  · rw [hpre, hmax]
    exact Nat.le_max_left _ _
  · intro s hs
    rw [hret] at hs
    have hlt := (hnew s hs).2.2
    omega
  · rw [hentered]
    exact h.sequenceNumbers.sublist (covered_sublist pool bound)
  intro s hs
  rw [hentered] at hs
  rw [hpre]
  exact .inl (hnew s hs).2.1

lemma Sound.stepRetire (h : Sound pool) (bound : Nat)
    (hreg : Regular pool (.retirePriorTo bound)) :
    Sound (pool.step (.retirePriorTo bound)).2 ∧ Moves (event step pool (.retirePriorTo bound)) := by
  rcases h.retirePriorTo_cases hreg with ⟨retired, hok, hr⟩ | hfull
  · have hstep : pool.step (.retirePriorTo bound) = (.ok (), retired) := hok
    rw [event, hstep]
    exact ⟨h.retiredTo hr, h.moves_retired rfl hr.pending hr.largest rfl rfl
      (fun _ he => by simp at he)⟩
  have hstep : pool.step (.retirePriorTo bound) = (.error .retireQueueFull, pool) := hfull
  rw [event, hstep]
  exact ⟨h, Moves.still rfl rfl rfl rfl (fun _ _ => rfl)⟩

lemma Sound.stepStale (h : Sound pool) {frame : NewConnectionIdFrame} {activeLimit : Nat}
    (hord : ¬ frame.sequenceNumber < frame.retirePriorTo)
    (hstale : frame.sequenceNumber < pool.largestRetirePriorTo) :
    Sound (pool.step (.addWithRetirePriorTo frame activeLimit)).2 ∧
      Moves (event step pool (.addWithRetirePriorTo frame activeLimit)) := by
  have hnone : pool.covered frame.retirePriorTo = [] := by
    rw [covered, map_eq_nil_iff, filter_eq_nil_iff]
    intro entry hmem hb
    obtain ⟨hactive, hlt⟩ := covered_active (mem_filter.mpr ⟨hmem, hb⟩)
    have hkept := h.kept entry hactive
    omega
  have hstep : pool.step (.addWithRetirePriorTo frame activeLimit)
      = pool.queueRetire frame.sequenceNumber := by
    show pool.addWithRetirePriorTo frame activeLimit = _
    unfold addWithRetirePriorTo retirePriorTo
    rw [if_neg hord, if_pos (by omega)]
    simp [hstale]
  have hsound := h.queueRetire hstale
  refine ⟨by rw [hstep]; exact hsound, ?_⟩
  have hasked : asked pool (.addWithRetirePriorTo frame activeLimit) = [frame.sequenceNumber] := by
    rw [asked, if_neg hord, if_pos hstale, hnone, nil_append]
  have hret : ∀ post : PeerPool,
      retirements ⟨pool, .addWithRetirePriorTo frame activeLimit, .ok (), post⟩
        = [frame.sequenceNumber] := fun _ => hasked
  rw [event, hstep]
  by_cases hknown : frame.sequenceNumber ∈ pool.pending
  · rw [queueRetire_known hknown]
    have hentered : entered ⟨pool, .addWithRetirePriorTo frame activeLimit, .ok (), pool⟩ = [] := by
      rw [entered, hret]
      simp [hknown]
    refine ⟨?_, le_rfl, ?_, ?_, ?_, fun err he => by simp at he⟩
    · rw [hentered, append_nil]
      rfl
    · simp [hret, hstale]
    · simp [hentered]
    · simp [hentered]
  rcases Nat.lt_or_ge pool.pending.length maxRetireQueueLen with hroom | hfull
  · obtain ⟨queue, hqueue, hlist⟩ := queueRetire_new hknown hroom
    rw [hqueue]
    have hentered : entered ⟨pool, .addWithRetirePriorTo frame activeLimit, .ok (),
        { pool with retireQueue := queue }⟩ = [frame.sequenceNumber] := by
      simp [entered, hret, hknown]
    refine ⟨?_, le_rfl, ?_, ?_, ?_, fun err he => by simp at he⟩
    · rw [hentered]
      exact hlist
    · simp [hret, hstale]
    · simp [hentered]
    intro s hs
    rw [hentered, mem_singleton] at hs
    rw [hs]
    exact .inr ⟨frame, activeLimit, rfl, rfl, hstale⟩
  · rw [queueRetire_full hknown hfull]
    exact Moves.still rfl rfl rfl rfl (fun _ _ => rfl)

lemma Sound.stepAnnounced (h : Sound pool) (frame : NewConnectionIdFrame) (activeLimit : Nat)
    (hreg : Regular pool (.addWithRetirePriorTo frame activeLimit)) :
    Sound (pool.step (.addWithRetirePriorTo frame activeLimit)).2 ∧
      Moves (event step pool (.addWithRetirePriorTo frame activeLimit)) := by
  have hadd : pool.step (.addWithRetirePriorTo frame activeLimit)
      = pool.addWithRetirePriorTo frame activeLimit := rfl
  by_cases hlarge : frame.sequenceNumber < frame.retirePriorTo
  · have hstep : pool.step (.addWithRetirePriorTo frame activeLimit)
        = (.error .retirePriorToTooLarge, pool) := by
      rw [hadd, addWithRetirePriorTo, if_pos hlarge]
    rw [event, hstep]
    have hret : retirements ⟨pool, .addWithRetirePriorTo frame activeLimit,
        .error .retirePriorToTooLarge, pool⟩ = [] := by
      rw [retirements_eq (by simp), asked, if_pos hlarge]
    exact ⟨h, Moves.still rfl hret rfl rfl (fun _ _ => rfl)⟩
  by_cases hstale : frame.sequenceNumber < pool.largestRetirePriorTo
  · exact h.stepStale hlarge hstale
  rcases h.retirePriorTo_cases (hreg.resolve_left hlarge) with ⟨retired, hok, hr⟩ | hfull
  · have hsound := h.retiredTo hr
    have hbound : ¬ frame.sequenceNumber < retired.largestRetirePriorTo := by
      rw [hr.largest]
      omega
    have hstep : pool.step (.addWithRetirePriorTo frame activeLimit)
        = retired.addWithLimit frame.sequenceNumber frame.connectionId
          frame.statelessResetToken activeLimit := by
      simp [hadd, addWithRetirePriorTo, hlarge, hok, hbound]
    obtain ⟨hafter, hunchanged⟩ := hsound.addWithLimit frame.connectionId
      frame.statelessResetToken activeLimit (not_lt.mp hbound)
    obtain ⟨hqueue, hmax, hnotFull⟩ := retired.addWithLimit_frame frame.sequenceNumber
      frame.connectionId frame.statelessResetToken activeLimit
    rcases hres : retired.addWithLimit frame.sequenceNumber frame.connectionId
      frame.statelessResetToken activeLimit with ⟨result, after⟩
    rw [hres] at hstep hafter hunchanged hqueue hmax hnotFull
    rw [event, hstep]
    have hret : retirements ⟨pool, .addWithRetirePriorTo frame activeLimit, result, after⟩
        = pool.covered frame.retirePriorTo := by
      rw [retirements_eq hnotFull, asked, if_neg hlarge, if_neg hstale, append_nil]
    have hpend : after.pending = pool.pending ++ pool.covered frame.retirePriorTo := by
      rw [← hr.pending]
      exact congrArg Ring.toList hqueue
    refine ⟨hafter, h.moves_retired rfl hpend (hmax.trans hr.largest) rfl hret ?_⟩
    intro err he
    refine .inr ⟨frame, activeLimit, rfl, ?_⟩
    have hsame : after = retired := hunchanged err he
    rw [hok, hsame]
  have hstep : pool.step (.addWithRetirePriorTo frame activeLimit)
      = (.error .retireQueueFull, pool) := by
    rw [hadd, addWithRetirePriorTo, if_neg hlarge, hfull]
  rw [event, hstep]
  exact ⟨h, Moves.still rfl rfl rfl rfl (fun _ _ => rfl)⟩

lemma Sound.stepAdd (h : Sound pool) (sequenceNumber : Nat) (connectionId : Bytes)
    (token : ResetToken) (activeLimit : Nat)
    (hreg : Regular pool (.addWithLimit sequenceNumber connectionId token activeLimit)) :
    Sound (pool.step (.addWithLimit sequenceNumber connectionId token activeLimit)).2 ∧
      Moves (event step pool (.addWithLimit sequenceNumber connectionId token activeLimit)) := by
  obtain ⟨hafter, hsame⟩ := h.addWithLimit connectionId token activeLimit hreg
  obtain ⟨hqueue, hmax, hnotFull⟩ :=
    pool.addWithLimit_frame sequenceNumber connectionId token activeLimit
  exact ⟨hafter, Moves.still rfl (retirements_eq hnotFull) hqueue hmax hsame⟩

lemma Sound.stepDiscard (h : Sound pool) : Sound (pool.step .discardRetireFrame).2 ∧
    Moves (event step pool .discardRetireFrame) := by
  have hentered : entered (event step pool .discardRetireFrame) = [] := rfl
  refine ⟨h.discardRetireFrame, ?_, le_rfl, ?_, ?_, ?_, fun err he => ?_⟩
  · rw [hentered, append_nil]
    show pool.retireQueue.front.toList ++ (pool.retireQueue.pop 0).toList = pool.pending
    rw [Ring.front_eq, Ring.toList_pop, pending]
    cases pool.retireQueue.toList with
    | nil | cons => rfl
  · intro s hs
    have hnil : s ∈ ([] : List Nat) := hs
    simp at hnil
  · simp [hentered]
  · simp [hentered]
  · have hok : Except.ok () = (Except.error err : Except Error Unit) := he
    simp at hok

/-- **Every regular call keeps the pool sound and moves the queue as it should.** -/
theorem Sound.step (h : Sound pool) (op : Op) (hreg : Regular pool op) :
    Sound (pool.step op).2 ∧ Moves (event step pool op) := by
  cases op with
  | addInitial connectionId => exact h.stepInitial connectionId hreg
  | addWithLimit sequenceNumber connectionId token activeLimit =>
    exact h.stepAdd sequenceNumber connectionId token activeLimit hreg
  | addWithRetirePriorTo frame activeLimit => exact h.stepAnnounced frame activeLimit hreg
  | retirePriorTo bound => exact h.stepRetire bound hreg
  | consumeUnused =>
    refine ⟨h.consumeUnused, Moves.still rfl rfl ?_ ?_ (fun err he => ?_)⟩
    · show pool.consumeUnused.2.retireQueue = pool.retireQueue
      unfold PeerPool.consumeUnused
      split <;> rfl
    · show pool.consumeUnused.2.largestRetirePriorTo = pool.largestRetirePriorTo
      unfold PeerPool.consumeUnused
      split <;> rfl
    · have hok : Except.ok () = (Except.error err : Except Error Unit) := he
      simp at hok
  | markInUse sequenceNumber =>
    have hframe : (pool.markInUse sequenceNumber).2.retireQueue = pool.retireQueue ∧
        (pool.markInUse sequenceNumber).2.largestRetirePriorTo = pool.largestRetirePriorTo ∧
        (pool.markInUse sequenceNumber).1 ≠ .error .retireQueueFull ∧
        ∀ err, (pool.markInUse sequenceNumber).1 = .error err →
          (pool.markInUse sequenceNumber).2 = pool := by
      unfold PeerPool.markInUse
      split <;> simp
    obtain ⟨hqueue, hmax, hnotFull, hsame⟩ := hframe
    exact ⟨h.markInUse sequenceNumber, Moves.still rfl (retirements_eq hnotFull) hqueue hmax hsame⟩
  | discardRetireFrame => exact h.stepDiscard

/-! ### Whole runs -/

/-- No id is announced stale after its retirement was sent. -/
def NoRepeat (history : List Call) : Prop :=
  ∀ before e after, history = before ++ e :: after →
    ∀ s, Announces e s → s ∉ before.flatMap delivered

/-- The books of the retire queue. -/
structure Books (history : List Call) (pool : PeerPool) : Prop where
  sound : Sound pool
  ordered : history.flatMap delivered ++ pool.pending = history.flatMap entered
  bounded : ∀ s ∈ history.flatMap retirements, s < pool.largestRetirePriorTo
  complete : ∀ s ∈ history.flatMap retirements, s ∈ history.flatMap entered
  once : NoRepeat history → (history.flatMap entered).Nodup

lemma entered_subset (e : Call) : entered e ⊆ retirements e :=
  fun _ hs => (mem_filter.mp hs).1

lemma Books.step {history : List Call} (h : Books history pool) (op : Op)
    (hreg : Regular pool op) : Books (history ++ [event step pool op]) (pool.step op).2 := by
  obtain ⟨hsound, hmoves⟩ := h.sound.step op hreg
  obtain ⟨e, he⟩ : ∃ e : Call, event PeerPool.step pool op = e := ⟨_, rfl⟩
  have hpre : e.pre = pool := by rw [← he]; rfl
  have hpost : e.post = (pool.step op).2 := by rw [← he]; rfl
  rw [he] at hmoves ⊢
  rw [← hpost] at hsound ⊢
  have hord : history.flatMap delivered ++ e.pre.pending = history.flatMap entered := by
    rw [hpre]
    exact h.ordered
  refine ⟨hsound, ?_, ?_, ?_, ?_⟩
  · rw [flatMap_append, flatMap_append, flatMap_singleton, flatMap_singleton,
      append_assoc, hmoves.pending, ← append_assoc, hord]
  · intro s hs
    rw [flatMap_append, flatMap_singleton] at hs
    rcases mem_append.mp hs with hold | hnew
    · have hlt := h.bounded s hold
      have hgrew := hmoves.largest
      rw [hpre] at hgrew
      omega
    · exact hmoves.bounded s hnew
  · intro s hs
    rw [flatMap_append, flatMap_singleton] at hs ⊢
    rcases mem_append.mp hs with hold | hnew
    · exact mem_append_left _ (h.complete s hold)
    by_cases hwaits : s ∈ e.pre.pending
    · refine mem_append_left _ ?_
      rw [← hord]
      exact mem_append_right _ hwaits
    · exact mem_append_right _ (mem_filter.mpr ⟨hnew, decide_eq_true hwaits⟩)
  intro hno
  have hbefore : NoRepeat history := by
    intro before e' after hsplit s hs
    refine hno before e' (after ++ [e]) ?_ s hs
    rw [hsplit]
    simp
  rw [flatMap_append, flatMap_singleton]
  refine nodup_append.mpr ⟨h.once hbefore, hmoves.once, ?_⟩
  -- What enters now is either above every earlier retirement or a stale arrival.
  intro s hs r hr heq
  rw [← heq] at hr
  have hold : s ∈ history.flatMap retirements := by
    obtain ⟨e', he', hs'⟩ := mem_flatMap.mp hs
    exact mem_flatMap.mpr ⟨e', he', entered_subset e' hs'⟩
  rcases hmoves.fresh s hr with hlarge | hstale
  · have hlt := h.bounded s hold
    rw [hpre] at hlarge
    omega
  have hnotWaiting : s ∉ e.pre.pending := of_decide_eq_true (mem_filter.mp hr).2
  rw [← hord] at hs
  rcases mem_append.mp hs with hsent | hwaits
  · exact hno history e [] rfl s hstale hsent
  · exact hnotWaiting hwaits

lemma reachable_books (ops : List Op) (hreg : ∀ e ∈ trace step {} ops, Regular e.pre e.input) :
    Books (trace step {} ops) (exec step {} ops) := by
  refine trace_induction step Regular Books ?_ (fun _ _ op h hop => h.step op hop) ops hreg
  exact ⟨initial_sound, rfl, by simp, by simp, fun _ => nodup_nil⟩

lemma reachable_moves (ops : List Op) (hreg : ∀ e ∈ trace step {} ops, Regular e.pre e.input) :
    ∀ e ∈ trace step {} ops, Moves e := by
  have hall := trace_induction step Regular
    (fun history pool => Sound pool ∧ ∀ e ∈ history, Moves e) ⟨initial_sound, by simp⟩
    (by
      intro history pool op h hop
      obtain ⟨hsound, hmoves⟩ := h.1.step op hop
      refine ⟨hsound, fun e he => ?_⟩
      rcases mem_append.mp he with hold | hnew
      · exact h.2 e hold
      · rw [mem_singleton.mp hnew]
        exact hmoves) ops hreg
  exact hall.2

/-- **Over every regular run the pool is sound, no id is active and queued, and the queue sends
every retirement once, in order; a refused call changes nothing but what its Retire Prior To
retired.** -/
theorem regular_run_keeps_pool (ops : List Op)
    (hreg : ∀ e ∈ trace step {} ops, Regular e.pre e.input) :
    Sound (exec step {} ops) ∧
      (∀ entry ∈ (exec step {} ops).active,
        entry.sequenceNumber ∉ (exec step {} ops).pending) ∧
      (trace step {} ops).flatMap delivered ++ (exec step {} ops).pending
        = (trace step {} ops).flatMap entered ∧
      (∀ s ∈ (trace step {} ops).flatMap retirements,
        s ∈ (trace step {} ops).flatMap delivered ++ (exec step {} ops).pending) ∧
      (NoRepeat (trace step {} ops) →
        ((trace step {} ops).flatMap delivered ++ (exec step {} ops).pending).Nodup) ∧
      ∀ e ∈ trace step {} ops, ∀ err, e.output = .error err → e.post = e.pre ∨
        ∃ frame limit, e.input = .addWithRetirePriorTo frame limit ∧
          e.pre.retirePriorTo frame.retirePriorTo = (.ok (), e.post) := by
  have h := reachable_books ops hreg
  refine ⟨h.sound, fun entry hmem => h.sound.apart hmem, h.ordered, ?_, ?_, ?_⟩
  · rw [h.ordered]
    exact h.complete
  · rw [h.ordered]
    exact h.once
  · intro e he
    exact (reachable_moves ops hreg e he).refused

/-- A NEW_CONNECTION_ID frame with a token of its own. -/
def announce (sequenceNumber retirePriorTo : Nat) (name : UInt8) : Op :=
  .addWithRetirePriorTo
    { sequenceNumber := sequenceNumber
      retirePriorTo := retirePriorTo
      connectionId := [name]
      statelessResetToken := Vector.replicate 16 name } 4

def rotation : List Op :=
  [.addInitial [1], announce 1 0 2, announce 3 1 3, .consumeUnused, .discardRetireFrame,
    announce 4 3 4, announce 2 0 5]

theorem rotation_keeps_pool :
    (∀ e ∈ trace step {} rotation, Regular e.pre e.input) ∧ Sound (exec step {} rotation) ∧
      (exec step {} rotation).pending = [1, 2] :=
  have hregular : ∀ e ∈ trace step {} rotation, Regular e.pre e.input := by decide
  ⟨hregular, (regular_run_keeps_pool rotation hregular).1, by decide⟩

/-- Thirty-one stale announcements leave room for one of two retirements. -/
def crowded : List Op :=
  announce 100 100 200 :: (range 31).map (fun s => announce s 0 201) ++
    [announce 101 0 202, .retirePriorTo 150, announce 100 0 200]

/-- What the excluded calls do: a second initial id shares its name with an active one, a
retirement out of room leaves an id that is then both active and queued, a stale announcement
repeats a sent retirement, and a refused frame has retired an id. -/
theorem irregular_runs_break_pool :
    ((exec step {} [.addInitial [9], announce 1 0 1, .addInitial [1]]).active.map
        (·.connectionId) = [[1], [1]]) ∧
      ((∃ entry ∈ (exec step {} crowded).active,
        entry.sequenceNumber ∈ (exec step {} crowded).pending)) ∧
      (trace step {} [.addInitial [9], announce 1 1 1, .discardRetireFrame, announce 0 0 9,
        .discardRetireFrame]).flatMap delivered = [0, 0] ∧
      (let pool := exec step {} [.addInitial [9], announce 1 0 1]
       (pool.step (announce 2 1 1)).1 = .error .duplicateConnectionId ∧
         (pool.step (announce 2 1 1)).2 ≠ pool) := by
  refine ⟨by decide, by decide +kernel, by decide, by decide⟩

end PeerPool

end Netz.Quic
