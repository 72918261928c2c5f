/-
What each call keeps of a peer connection id pool.

`Sound` couples the four structures of a pool: the slots, the count of ids in use, the
retire queue and the largest Retire Prior To.  What ties them is that every active id is at
or above that bound and every queued one below it, so nothing is both.  Two calls can break
it and are let in only where they do not: `addInitial` writes the first slot without looking
at the others, and a retirement that runs out of queue half way leaves the first half
retired below a bound that was never recorded.
-/
import Mathlib.Data.List.Nodup
import Netz.Lib.Slots
import Netz.Proofs.StatelessReset

namespace Netz.Quic

open Lib List
open Option hiding filter_filter map_map

namespace PeerPool

/-- The ids the pool holds, in slot order. -/
def active (pool : PeerPool) : List CidEntry := pool.entries.filter (·.occupied)

/-- The retirements still to be sent, oldest first. -/
def pending (pool : PeerPool) : List Nat := pool.retireQueue.toList

def used (entry : CidEntry) : Bool := entry.occupied && entry.inUse

def below (bound : Nat) (entry : CidEntry) : Bool :=
  entry.occupied && decide (entry.sequenceNumber < bound)

/-- The active sequence numbers a Retire Prior To covers, in slot order. -/
def covered (pool : PeerPool) (bound : Nat) : List Nat :=
  (pool.entries.filter (below bound)).map (·.sequenceNumber)

structure Sound (pool : PeerPool) : Prop where
  size : pool.entries.length = maxPoolSize
  sequenceNumbers : (pool.active.map (·.sequenceNumber)).Nodup
  connectionIds : (pool.active.map (·.connectionId)).Nodup
  tokens : (pool.active.map (·.statelessResetToken)).Nodup
  kept : ∀ entry ∈ pool.active, pool.largestRetirePriorTo ≤ entry.sequenceNumber
  counted : pool.inUseCount = pool.entries.countP used
  queued : pool.pending.Nodup
  retired : ∀ s ∈ pool.pending, s < pool.largestRetirePriorTo

variable {pool pool' : PeerPool}

lemma Sound.apart (h : Sound pool) {entry : CidEntry} (hmem : entry ∈ pool.active) :
    entry.sequenceNumber ∉ pool.pending := by
  intro hpend
  exact not_lt.mpr (h.kept entry hmem) (h.retired _ hpend)

lemma initial_sound : Sound {} where
  size := rfl
  sequenceNumbers := by decide
  connectionIds := by decide
  tokens := by decide
  kept := by simp
  counted := by decide
  queued := by decide
  retired := by simp [pending]

lemma mem_active {entry : CidEntry} :
    entry ∈ pool.active ↔ entry ∈ pool.entries ∧ entry.occupied = true := mem_filter

lemma active_set_perm {i : Nat} {old new : CidEntry} (hget : pool.entries[i]? = some old)
    (hentries : pool'.entries = pool.entries.set i new) :
    ((guard (·.occupied) old).toList ++ pool'.active).Perm
      ((guard (·.occupied) new).toList ++ pool.active) := by
  have hperm := filterMap_set_perm hget new (guard (·.occupied))
  rw [filterMap_eq_filter, ← hentries] at hperm
  exact hperm

/-- What names an id. -/
def names (entry : CidEntry) : Nat × Bytes × ResetToken :=
  (entry.sequenceNumber, entry.connectionId, entry.statelessResetToken)

lemma Sound.of_names (h : Sound pool) (hsize : pool'.entries.length = maxPoolSize)
    (hperm : (pool'.active.map names).Perm (pool.active.map names))
    (hcounted : pool'.inUseCount = pool'.entries.countP used)
    (hqueue : pool'.retireQueue = pool.retireQueue)
    (hmax : pool'.largestRetirePriorTo = pool.largestRetirePriorTo) : Sound pool' := by
  have hseq : (pool'.active.map (·.sequenceNumber)).Perm (pool.active.map (·.sequenceNumber)) := by
    simpa [map_map, Function.comp_def, names] using hperm.map (·.1)
  have hcid : (pool'.active.map (·.connectionId)).Perm (pool.active.map (·.connectionId)) := by
    simpa [map_map, Function.comp_def, names] using hperm.map (·.2.1)
  have htoken : (pool'.active.map (·.statelessResetToken)).Perm
      (pool.active.map (·.statelessResetToken)) := by
    simpa [map_map, Function.comp_def, names] using hperm.map (·.2.2)
  have hpend : pool'.pending = pool.pending := congrArg Ring.toList hqueue
  refine ⟨hsize, hseq.nodup_iff.mpr h.sequenceNumbers, hcid.nodup_iff.mpr h.connectionIds,
    htoken.nodup_iff.mpr h.tokens, ?_, hcounted, hpend ▸ h.queued, ?_⟩
  · intro entry hmem
    rw [hmax]
    have hold := hseq.subset (mem_map_of_mem hmem)
    obtain ⟨old, hmem', hsame⟩ := mem_map.mp hold
    rw [← hsame]
    exact h.kept old hmem'
  · rw [hpend, hmax]
    exact h.retired

/-! ### Marking an id as used -/

lemma Sound.mark (h : Sound pool) {i : Nat} {old : CidEntry}
    (hget : pool.entries[i]? = some old) (hocc : old.occupied = true)
    (hentries : pool'.entries = pool.entries.set i { old with inUse := true })
    (hcount : pool'.inUseCount = if !old.inUse then pool.inUseCount + 1 else pool.inUseCount)
    (hqueue : pool'.retireQueue = pool.retireQueue)
    (hmax : pool'.largestRetirePriorTo = pool.largestRetirePriorTo) : Sound pool' := by
  obtain ⟨hi, hold⟩ := List.getElem_of_getElem? hget
  refine h.of_names (by rw [hentries, List.length_set]; exact h.size) ?_ ?_ hqueue hmax
  · have hperm := (active_set_perm hget hentries).map names
    rw [guard_eq_some_iff.mpr ⟨rfl, hocc⟩,
      guard_eq_some_iff.mpr ⟨rfl, (by exact hocc)⟩] at hperm
    exact List.Perm.cons_inv hperm
  rw [hcount, hentries, List.countP_set hi, hold, h.counted]
  have hin : used { old with inUse := true } = true := by simp [used, hocc]
  rw [hin]
  cases huse : old.inUse with
  | true =>
    have hwas : used old = true := by simp [used, hocc, huse]
    have hpos : 0 < pool.entries.countP used :=
      List.countP_pos_iff.mpr ⟨old, List.mem_of_getElem? hget, hwas⟩
    rw [hwas]
    simp
    omega
  | false => simp [used, huse]

lemma Sound.consumeUnused (h : Sound pool) : Sound pool.consumeUnused.2 := by
  unfold PeerPool.consumeUnused
  cases hfind : pool.entries.findIdx? (fun e => e.occupied && !e.inUse) with
  | none => exact h
  | some index =>
    obtain ⟨hget, hocc⟩ := findIdx_occupied hfind
    have hunused : (pool.entries.getD index {}).inUse = false := by
      obtain ⟨hlt, hp, -⟩ := findIdx?_eq_some_iff_getElem.mp hfind
      rw [getD_eq_getElem?_getD, getElem?_eq_getElem hlt]
      have hnot := (Bool.and_eq_true _ _ ▸ hp).2
      simpa using hnot
    refine h.mark hget hocc rfl ?_ rfl rfl
    rw [hunused]
    rfl

lemma Sound.markInUse (h : Sound pool) (sequenceNumber : Nat) :
    Sound (pool.markInUse sequenceNumber).2 := by
  unfold PeerPool.markInUse
  cases hfind : pool.entries.findIdx?
      (fun e => e.occupied && e.sequenceNumber == sequenceNumber) with
  | none => exact h
  | some index =>
    obtain ⟨hget, hocc⟩ := findIdx_occupied hfind
    exact h.mark hget hocc rfl rfl rfl rfl

/-! ### The retire queue -/

lemma queueRetire_known {s : Nat} (h : s ∈ pool.pending) :
    pool.queueRetire s = (.ok (), pool) := by simp [((Ring.contains_iff _ _).mpr h), queueRetire]

lemma queueRetire_new {s : Nat} (h : s ∉ pool.pending)
    (hroom : pool.pending.length < maxRetireQueueLen) :
    ∃ queue : RetireQueue, pool.queueRetire s = (.ok (), { pool with retireQueue := queue }) ∧
      queue.toList = pool.pending ++ [s] := by
  have hpush := Ring.toList_push pool.retireQueue s
  rw [if_pos (by simpa [pending] using hroom)] at hpush
  obtain ⟨queue, hqueue, hlist⟩ := map_eq_some_iff.mp hpush
  refine ⟨queue, ?_, hlist⟩
  unfold queueRetire
  rw [if_neg (fun hc => h ((Ring.contains_iff _ _).mp hc)), hqueue]

lemma queueRetire_full {s : Nat} (h : s ∉ pool.pending)
    (hfull : maxRetireQueueLen ≤ pool.pending.length) :
    pool.queueRetire s = (.error .retireQueueFull, pool) := by
  have hpush := Ring.toList_push pool.retireQueue s
  rw [if_neg (by simpa [pending] using hfull), map_eq_none_iff] at hpush
  unfold queueRetire
  rw [if_neg (fun hc => h ((Ring.contains_iff _ _).mp hc)), hpush]

lemma Sound.discardRetireFrame (h : Sound pool) : Sound pool.discardRetireFrame := by
  have htail : pool.discardRetireFrame.pending = pool.pending.tail := Ring.toList_pop _ _
  refine ⟨h.size, h.sequenceNumbers, h.connectionIds, h.tokens, h.kept, h.counted, ?_, ?_⟩
  · rw [htail]
    exact h.queued.sublist (tail_sublist _)
  intro s hs
  rw [htail] at hs
  exact h.retired s (mem_of_mem_tail hs)

lemma Sound.queueRetire (h : Sound pool) {s : Nat} (hs : s < pool.largestRetirePriorTo) :
    Sound (pool.queueRetire s).2 := by
  by_cases hknown : s ∈ pool.pending
  · rw [queueRetire_known hknown]
    exact h
  rcases Nat.lt_or_ge pool.pending.length maxRetireQueueLen with hroom | hfull
  · obtain ⟨queue, hqueue, hlist⟩ := queueRetire_new hknown hroom
    have hpend : pending { pool with retireQueue := queue } = pool.pending ++ [s] := hlist
    rw [hqueue]
    refine ⟨h.size, h.sequenceNumbers, h.connectionIds, h.tokens, h.kept, h.counted, ?_, ?_⟩
    · rw [hpend]
      exact nodup_append.mpr ⟨h.queued, nodup_singleton s, by
        intro a ha b hb hab
        rw [mem_singleton.mp hb] at hab
        exact hknown (hab ▸ ha)⟩
    intro r hr
    rw [hpend] at hr
    rcases mem_append.mp hr with hold | hnew
    · exact h.retired r hold
    · simp [mem_singleton.mp hnew, hs]
  · rw [queueRetire_full hknown hfull]
    exact h

/-! ### Retiring every id below a bound -/

def clear (bound : Nat) (entry : CidEntry) : CidEntry := if below bound entry then {} else entry

/-- What a completed retirement leaves. -/
structure RetiredTo (bound : Nat) (pool pool' : PeerPool) : Prop where
  entries : pool'.entries = pool.entries.map (clear bound)
  pending : pool'.pending = pool.pending ++ pool.covered bound
  inUseCount : pool'.inUseCount = pool.inUseCount -
    (pool.entries.filter (below bound)).countP (·.inUse)
  largest : pool'.largestRetirePriorTo = max pool.largestRetirePriorTo bound

/-- The ids from slot `index` on that a bound retires. -/
def coveredFrom (pool : PeerPool) (bound index : Nat) : List CidEntry :=
  (pool.entries.drop index).filter (below bound)

/-- The slots from `index` on are cleared, and their ids queued. -/
structure ClearedFrom (bound index : Nat) (pool pool' : PeerPool) : Prop where
  entries : pool'.entries = pool.entries.take index ++ (pool.entries.drop index).map (clear bound)
  pending : pool'.pending = pool.pending ++ (pool.coveredFrom bound index).map (·.sequenceNumber)
  inUseCount : pool'.inUseCount = pool.inUseCount - (pool.coveredFrom bound index).countP (·.inUse)
  largest : pool'.largestRetirePriorTo = pool.largestRetirePriorTo

lemma below_iff {bound : Nat} {entry : CidEntry} :
    below bound entry = true ↔ entry.occupied = true ∧ entry.sequenceNumber < bound := by
  simp [below]

section Slot

variable {bound index : Nat} {entry : CidEntry}

lemma coveredFrom_below (hget : pool.entries[index]? = some entry)
    (hb : below bound entry = true) :
    pool.coveredFrom bound index = entry :: pool.coveredFrom bound (index + 1) := by
  obtain ⟨hlt, hent⟩ := List.getElem_of_getElem? hget
  rw [coveredFrom, List.drop_eq_getElem_cons hlt, hent, List.filter_cons_of_pos hb]
  rfl

lemma coveredFrom_above (hget : pool.entries[index]? = some entry)
    (hb : ¬ below bound entry = true) :
    pool.coveredFrom bound index = pool.coveredFrom bound (index + 1) := by
  obtain ⟨hlt, hent⟩ := List.getElem_of_getElem? hget
  rw [coveredFrom, List.drop_eq_getElem_cons hlt, hent, List.filter_cons_of_neg hb]
  rfl

lemma ClearedFrom.cons {next pool' : PeerPool} (hget : pool.entries[index]? = some entry)
    (hb : below bound entry = true) (hentries : next.entries = pool.entries.set index {})
    (hpend : next.pending = pool.pending ++ [entry.sequenceNumber])
    (hcount : next.inUseCount = if entry.inUse then pool.inUseCount - 1 else pool.inUseCount)
    (hmax : next.largestRetirePriorTo = pool.largestRetirePriorTo)
    (h : ClearedFrom bound (index + 1) next pool') : ClearedFrom bound index pool pool' := by
  obtain ⟨hlt, hent⟩ := List.getElem_of_getElem? hget
  have hdrop : next.entries.drop (index + 1) = pool.entries.drop (index + 1) := by
    rw [hentries]
    exact List.drop_set_of_lt (Nat.lt_succ_self index)
  have htake : next.entries.take (index + 1) = pool.entries.take index ++ [({} : CidEntry)] := by
    rw [hentries, List.take_succ_eq_append_getElem (by simpa using hlt)]
    simp [List.take_set_of_le]
  have hrest : next.coveredFrom bound (index + 1) = pool.coveredFrom bound (index + 1) := by
    rw [coveredFrom, hdrop]
    rfl
  have hclear : clear bound entry = {} := by rw [clear, if_pos hb]
  refine ⟨?_, ?_, ?_, h.largest.trans hmax⟩
  · rw [h.entries, hdrop, htake, List.drop_eq_getElem_cons hlt, hent, List.map_cons, hclear,
      List.append_assoc]
    rfl
  · rw [h.pending, hpend, hrest, coveredFrom_below hget hb, List.append_assoc]
    rfl
  rw [h.inUseCount, hcount, hrest, coveredFrom_below hget hb, List.countP_cons]
  by_cases huse : entry.inUse = true
  · rw [if_pos huse, if_pos huse]
    omega
  · simp [huse]

lemma ClearedFrom.skip {pool' : PeerPool} (hget : pool.entries[index]? = some entry)
    (hb : ¬ below bound entry = true) (h : ClearedFrom bound (index + 1) pool pool') :
    ClearedFrom bound index pool pool' := by
  obtain ⟨hlt, hent⟩ := List.getElem_of_getElem? hget
  have hclear : clear bound entry = entry := by rw [clear, if_neg hb]
  have hcov := coveredFrom_above hget hb
  refine ⟨?_, ?_, ?_, h.largest⟩
  · rw [h.entries, List.take_succ_eq_append_getElem hlt, List.drop_eq_getElem_cons hlt, hent,
      List.map_cons, hclear, List.append_assoc]
    rfl
  · rw [hcov]
    exact h.pending
  · rw [hcov]
    exact h.inUseCount

end Slot

/-- The loop clears and queues every id it covers, when the queue has room for them. -/
theorem retireEntries_room (bound remaining : Nat) :
    ∀ (pool : PeerPool) (index : Nat), index + remaining = pool.entries.length →
      ((pool.coveredFrom bound index).map (·.sequenceNumber)).Nodup →
      (∀ entry ∈ pool.coveredFrom bound index, entry.sequenceNumber ∉ pool.pending) →
      pool.pending.length + (pool.coveredFrom bound index).length ≤ maxRetireQueueLen →
      ∃ pool', pool.retireEntries bound remaining index = (.ok (), pool') ∧
        ClearedFrom bound index pool pool' := by
  induction remaining with
  | zero =>
    intro pool index hlen _ _ _
    have hdrop : pool.entries.drop index = [] := drop_eq_nil_of_le (by omega)
    have hnone : pool.coveredFrom bound index = [] := by
      rw [coveredFrom, hdrop]
      rfl
    refine ⟨pool, rfl, ?_, ?_, ?_, rfl⟩
    · rw [hdrop, take_of_length_le (by omega)]
      simp
    · rw [hnone]
      simp
    · rw [hnone]
      simp
  | succ remaining ih =>
    intro pool index hlen hnodup hapart hroom
    have hlt : index < pool.entries.length := by omega
    obtain ⟨entry, hget⟩ : ∃ entry, pool.entries[index]? = some entry :=
      ⟨_, getElem?_eq_getElem hlt⟩
    unfold retireEntries
    rw [hget]
    dsimp only
    by_cases hb : below bound entry = true
    · rw [coveredFrom_below hget hb] at hnodup hapart hroom
      rw [map_cons, nodup_cons] at hnodup
      rw [length_cons] at hroom
      obtain ⟨queue, hqueue, hlist⟩ :=
        queueRetire_new (hapart entry mem_cons_self) (by omega)
      rw [if_pos (below_iff.mp hb), hqueue]
      obtain ⟨next, hnext⟩ : ∃ next : PeerPool, next = { pool with
            retireQueue := queue
            inUseCount := if entry.inUse then pool.inUseCount - 1 else pool.inUseCount
            entries := pool.entries.set index {} } := ⟨_, rfl⟩
      have hpend : next.pending = pool.pending ++ [entry.sequenceNumber] := by
        rw [hnext]
        exact hlist
      have hrest : next.coveredFrom bound (index + 1) = pool.coveredFrom bound (index + 1) := by
        rw [hnext]
        exact congrArg _ (drop_set_of_lt (Nat.lt_succ_self index))
      obtain ⟨pool', hok, hcleared⟩ := ih next (index + 1) (by rw [hnext]; simp; omega)
        (by rw [hrest]; exact hnodup.2)
        (by
          intro other hother hmem
          rw [hrest] at hother
          rw [hpend] at hmem
          rcases mem_append.mp hmem with hold | hnew
          · exact hapart other (mem_cons_of_mem _ hother) hold
          refine hnodup.1 ?_
          rw [← mem_singleton.mp hnew]
          exact mem_map_of_mem hother)
        (by rw [hrest, hpend, length_append, length_singleton]; omega)
      refine ⟨pool', by rw [← hok, hnext], ?_⟩
      exact hcleared.cons hget hb (by rw [hnext]) hpend (by rw [hnext]) (by rw [hnext])
    have hskip := coveredFrom_above hget hb
    rw [hskip] at hnodup hapart hroom
    obtain ⟨pool', hok, hcleared⟩ := ih pool (index + 1) (by omega) hnodup hapart hroom
    rw [if_neg (fun h => hb (below_iff.mpr h))]
    exact ⟨pool', hok, hcleared.skip hget hb⟩

lemma retireEntries_full (bound remaining : Nat) :
    ∀ (index : Nat), index + remaining = pool.entries.length →
      (∀ entry ∈ pool.coveredFrom bound index, entry.sequenceNumber ∉ pool.pending) →
      pool.coveredFrom bound index ≠ [] → maxRetireQueueLen ≤ pool.pending.length →
      pool.retireEntries bound remaining index = (.error .retireQueueFull, pool) := by
  induction remaining with
  | zero => simp [coveredFrom]
  | succ remaining ih =>
    intro index hlen hapart hsome hfull
    have hlt : index < pool.entries.length := by omega
    obtain ⟨entry, hget⟩ : ∃ entry, pool.entries[index]? = some entry :=
      ⟨_, getElem?_eq_getElem hlt⟩
    unfold retireEntries
    rw [hget]
    dsimp only
    by_cases hb : below bound entry = true
    · have hmem : entry ∈ pool.coveredFrom bound index := by simp [coveredFrom_below hget hb]
      rw [if_pos (below_iff.mp hb), queueRetire_full (hapart entry hmem) hfull]
    rw [if_neg (fun h => hb (below_iff.mpr h))]
    rw [coveredFrom_above hget hb] at hapart hsome
    exact ih (index + 1) (by omega) hapart hsome hfull

/-- The queue has room for all the ids a bound retires, or for none of them. -/
def RetireRoom (pool : PeerPool) (bound : Nat) : Prop :=
  pool.covered bound = [] ∨ pool.pending.length + (pool.covered bound).length ≤ maxRetireQueueLen ∨
    maxRetireQueueLen ≤ pool.pending.length

variable {bound : Nat}

lemma covered_active {entry : CidEntry} (hmem : entry ∈ pool.entries.filter (below bound)) :
    entry ∈ pool.active ∧ entry.sequenceNumber < bound := by
  obtain ⟨hentries, hb⟩ := mem_filter.mp hmem
  exact ⟨(mem_active).mpr ⟨hentries, (below_iff.mp hb).1⟩, (below_iff.mp hb).2⟩

lemma covered_sublist (pool : PeerPool) (bound : Nat) :
    (pool.covered bound).Sublist (pool.active.map (·.sequenceNumber)) := by
  have hfilter : pool.entries.filter (below bound)
      = pool.active.filter (fun e => decide (e.sequenceNumber < bound)) := by
    rw [active, filter_filter]
    congr 1
    funext e
    exact Bool.and_comm _ _
  rw [covered, hfilter]
  exact filter_sublist.map _

lemma pending_le (pool : PeerPool) : pool.pending.length ≤ maxRetireQueueLen := by
  rw [pending, Ring.length_toList]
  exact pool.retireQueue.len_le

/-- **A retirement with room is complete; one without leaves the pool as it was.** -/
theorem Sound.retirePriorTo_cases (h : Sound pool) (hroom : RetireRoom pool bound) :
    (∃ pool', pool.retirePriorTo bound = (.ok (), pool') ∧ RetiredTo bound pool pool') ∨
      pool.retirePriorTo bound = (.error .retireQueueFull, pool) := by
  unfold retirePriorTo
  by_cases hle : bound ≤ pool.largestRetirePriorTo
  · have hnone : pool.entries.filter (below bound) = [] := by
      apply filter_eq_nil_iff.mpr
      intro entry hmem hb
      have hact := covered_active (mem_filter.mpr ⟨hmem, hb⟩)
      have hkept := h.kept entry hact.1
      omega
    have hclear : pool.entries.map (clear bound) = pool.entries := by
      conv_rhs => rw [← map_id pool.entries]
      apply map_congr_left
      intro entry hmem
      rw [clear, if_neg]
      · rfl
      intro hb
      have hnil : entry ∈ pool.entries.filter (below bound) := mem_filter.mpr ⟨hmem, hb⟩
      simp [hnone] at hnil
    rw [if_pos hle]
    refine .inl ⟨pool, rfl, hclear.symm, ?_, ?_, (Nat.max_eq_left hle).symm⟩
    · rw [covered, hnone]
      simp
    · rw [hnone]
      simp
  rw [if_neg hle]
  have hnodup := h.sequenceNumbers.sublist (covered_sublist pool bound)
  have hapart : ∀ entry ∈ pool.entries.filter (below bound), entry.sequenceNumber ∉ pool.pending :=
    fun entry hmem => h.apart (covered_active hmem).1
  have hsize : 0 + maxPoolSize = pool.entries.length := by rw [h.size, Nat.zero_add]
  by_cases hfits : pool.pending.length + (pool.covered bound).length ≤ maxRetireQueueLen
  · obtain ⟨pool', hok, hcleared⟩ :=
      retireEntries_room bound maxPoolSize pool 0 hsize hnodup hapart
        (by simpa [covered, coveredFrom] using hfits)
    rw [hok]
    refine .inl ⟨_, rfl, by simpa using hcleared.entries, hcleared.pending, hcleared.inUseCount, ?_⟩
    exact (Nat.max_eq_right (Nat.le_of_not_le hle)).symm
  have hfull : maxRetireQueueLen ≤ pool.pending.length := by
    rcases hroom with hnone | hfits' | hfull
    · rw [hnone] at hfits
      exact absurd pool.pending_le hfits
    · exact absurd hfits' hfits
    · exact hfull
  have hsome : pool.entries.filter (below bound) ≠ [] := by
    intro hnone
    rw [covered, hnone] at hfits
    exact hfits pool.pending_le
  simp [retireEntries_full bound maxPoolSize 0 hsize hapart hsome hfull]

lemma RetiredTo.active (h : RetiredTo bound pool pool') :
    pool'.active = pool.active.filter (fun e => !below bound e) := by
  rw [PeerPool.active, h.entries, PeerPool.active, filter_filter]
  generalize pool.entries = entries
  induction entries with
  | nil => rfl
  | cons entry rest ih =>
    rw [map_cons]
    by_cases hb : below bound entry = true
    · simp [clear, hb, ih]
    have hclear : clear bound entry = entry := by rw [clear, if_neg hb]
    rw [hclear]
    by_cases hocc : entry.occupied = true
    · rw [filter_cons_of_pos hocc, ih, filter_cons_of_pos (by simp [hb, hocc])]
    · rw [filter_cons_of_neg hocc, ih, filter_cons_of_neg (by simp [hocc])]

/-- The ids in use are those that stay in use and those that were retired. -/
theorem countP_clear (bound : Nat) (entries : List CidEntry) :
    (entries.map (clear bound)).countP used + (entries.filter (below bound)).countP (·.inUse)
      = entries.countP used := by
  induction entries with
  | nil => rfl
  | cons entry rest ih =>
    rw [map_cons, countP_cons, countP_cons]
    by_cases hb : below bound entry = true
    · have hclear : clear bound entry = {} := by rw [clear, if_pos hb]
      have huse : used entry = entry.inUse := by rw [used, (below_iff.mp hb).1, Bool.true_and]
      rw [hclear, filter_cons_of_pos hb, countP_cons, huse]
      simp only [used, Bool.false_and, Bool.false_eq_true, if_false]
      omega
    have hclear : clear bound entry = entry := by rw [clear, if_neg hb]
    rw [hclear, filter_cons_of_neg hb]
    omega

lemma Sound.retiredTo (h : Sound pool) (hr : RetiredTo bound pool pool') : Sound pool' := by
  have hsub : pool'.active.Sublist pool.active := by simp [hr.active]
  refine ⟨by rw [hr.entries, length_map, h.size], h.sequenceNumbers.sublist (hsub.map _),
    h.connectionIds.sublist (hsub.map _), h.tokens.sublist (hsub.map _), ?_, ?_, ?_, ?_⟩
  · intro entry hmem
    have hkept := h.kept entry (hsub.subset hmem)
    rw [hr.active] at hmem
    obtain ⟨hactive, hnot⟩ := mem_filter.mp hmem
    have hnb : ¬ below bound entry = true := by simpa using hnot
    have hge : ¬ entry.sequenceNumber < bound :=
      fun hlt => hnb (below_iff.mpr ⟨(mem_active.mp hactive).2, hlt⟩)
    rw [hr.largest]
    omega
  · have hcount := countP_clear bound pool.entries
    rw [hr.inUseCount, hr.entries, h.counted]
    omega
  · rw [hr.pending]
    refine nodup_append.mpr
      ⟨h.queued, h.sequenceNumbers.sublist (covered_sublist pool bound), ?_⟩
    intro s hs r hcov heq
    obtain ⟨entry, hmem, hseq⟩ := mem_map.mp hcov
    refine h.apart (covered_active hmem).1 ?_
    rw [hseq, ← heq]
    exact hs
  intro s hs
  rw [hr.pending] at hs
  rw [hr.largest]
  rcases mem_append.mp hs with hold | hnew
  · have := h.retired s hold
    omega
  obtain ⟨entry, hmem, hseq⟩ := mem_map.mp hnew
  have := (covered_active hmem).2
  omega

/-! ### Taking in an id -/

lemma availableAddSlot_some {connectionId : Bytes} {token : ResetToken} {activeLimit index : Nat}
    (h : pool.availableAddSlot connectionId token activeLimit = .ok (some index)) :
    (∀ entry ∈ pool.active, entry.connectionId ≠ connectionId) ∧
      (∀ entry ∈ pool.active, entry.statelessResetToken ≠ token) ∧
      ∃ vacant, pool.entries[index]? = some vacant ∧ vacant.occupied = false := by
  unfold availableAddSlot at h
  obtain ⟨hcid, h⟩ := of_guard h nofun
  by_cases htoken :
      (pool.entries.filter (·.occupied)).any (fun e => e.statelessResetToken == token)
  · simp [htoken] at h
  rw [if_neg htoken] at h
  obtain ⟨hlim, h⟩ := of_guard h nofun
  rw [Except.ok.injEq] at h
  obtain ⟨hlt, hp, -⟩ := findIdx?_eq_some_iff_getElem.mp h
  refine ⟨?_, ?_, _, getElem?_eq_getElem hlt, by simpa using hp⟩
  · intro entry hmem heq
    exact hcid (any_eq_true.mpr ⟨entry, hmem, beq_iff_eq.mpr heq⟩)
  · intro entry hmem heq
    exact htoken (any_eq_true.mpr ⟨entry, hmem, beq_iff_eq.mpr heq⟩)

/-- A new id in a vacant slot, distinct from the active ones and not below the bound. -/
theorem Sound.insert (h : Sound pool) {i : Nat} {old new : CidEntry}
    (hget : pool.entries[i]? = some old) (hvacant : old.occupied = false)
    (hocc : new.occupied = true) (hunused : new.inUse = false)
    (hentries : pool'.entries = pool.entries.set i new)
    (hcount : pool'.inUseCount = pool.inUseCount) (hqueue : pool'.retireQueue = pool.retireQueue)
    (hmax : pool'.largestRetirePriorTo = pool.largestRetirePriorTo)
    (hbound : pool.largestRetirePriorTo ≤ new.sequenceNumber)
    (hseq : ∀ entry ∈ pool.active, entry.sequenceNumber ≠ new.sequenceNumber)
    (hcid : ∀ entry ∈ pool.active, entry.connectionId ≠ new.connectionId)
    (htoken : ∀ entry ∈ pool.active, entry.statelessResetToken ≠ new.statelessResetToken) :
    Sound pool' := by
  obtain ⟨hi, hold⟩ := List.getElem_of_getElem? hget
  have hperm := active_set_perm hget hentries
  have hnone : guard (fun e : CidEntry => e.occupied) old = none := by simp [hvacant]
  rw [hnone, guard_eq_some_iff.mpr ⟨rfl, hocc⟩] at hperm
  have hcons : pool'.active.Perm (new :: pool.active) := hperm
  have hnodup : ∀ {β : Type} (f : CidEntry → β), (∀ entry ∈ pool.active, f entry ≠ f new) →
      (pool.active.map f).Nodup → (pool'.active.map f).Nodup := by
    intro β f hf hpre
    rw [(hcons.map f).nodup_iff, List.map_cons, List.nodup_cons]
    refine ⟨fun hmem => ?_, hpre⟩
    obtain ⟨entry, hent, heq⟩ := List.mem_map.mp hmem
    exact hf entry hent heq
  have hpend : pool'.pending = pool.pending := congrArg Ring.toList hqueue
  refine ⟨by rw [hentries, List.length_set]; exact h.size, hnodup _ hseq h.sequenceNumbers,
    hnodup _ hcid h.connectionIds, hnodup _ htoken h.tokens, ?_, ?_, hpend ▸ h.queued, ?_⟩
  · intro entry hmem
    rw [hmax]
    rcases List.mem_cons.mp (hcons.subset hmem) with hnew | hpre
    · rw [hnew]
      exact hbound
    · exact h.kept entry hpre
  · have hin : used new = false := by simp [used, hunused]
    have hout : used old = false := by simp [used, hvacant]
    rw [hcount, hentries, List.countP_set hi, hold, hin, hout, h.counted]
    simp
  · rw [hpend, hmax]
    exact h.retired

lemma Sound.addWithLimit (h : Sound pool) {sequenceNumber : Nat} (connectionId : Bytes)
    (token : ResetToken) (activeLimit : Nat) (hbound : pool.largestRetirePriorTo ≤ sequenceNumber) :
    Sound (pool.addWithLimit sequenceNumber connectionId token activeLimit).2 ∧
      ∀ e, (pool.addWithLimit sequenceNumber connectionId token activeLimit).1 = .error e →
        (pool.addWithLimit sequenceNumber connectionId token activeLimit).2 = pool := by
  unfold PeerPool.addWithLimit
  by_cases hlen : connectionId.length = 0 ∨ maxConnectionIdLen < connectionId.length
  · rw [if_pos hlen]
    exact ⟨h, fun _ _ => rfl⟩
  rw [if_neg hlen]
  cases hfind :
      pool.entries.find? (fun e => e.occupied && e.sequenceNumber == sequenceNumber) with
  | some old =>
    dsimp only
    by_cases hcid : old.connectionId ≠ connectionId
    · rw [if_pos hcid]
      exact ⟨h, fun _ _ => rfl⟩
    rw [if_neg hcid]
    by_cases htoken : old.statelessResetToken ≠ token
    · rw [if_pos htoken]
      exact ⟨h, fun _ _ => rfl⟩
    · rw [if_neg htoken]
      exact ⟨h, fun _ _ => rfl⟩
  | none =>
    have hseq : ∀ entry ∈ pool.active, entry.sequenceNumber ≠ sequenceNumber := by
      intro entry hmem heq
      obtain ⟨hent, hocc⟩ := (mem_active).mp hmem
      have hno := find?_eq_none.mp hfind entry hent
      simp [hocc, heq] at hno
    rcases hslot : pool.availableAddSlot connectionId token activeLimit with e | slot
    · exact ⟨h, fun _ _ => rfl⟩
    cases slot with
    | none => exact ⟨h, fun _ _ => rfl⟩
    | some index =>
      obtain ⟨hcid, htoken, vacant, hget, hvacant⟩ := availableAddSlot_some hslot
      refine ⟨?_, fun e he => by simp at he⟩
      exact h.insert hget hvacant rfl rfl rfl rfl rfl rfl hbound hseq hcid htoken

end PeerPool

end Netz.Quic
