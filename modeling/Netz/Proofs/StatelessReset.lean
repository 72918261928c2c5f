/-
When a reported stateless reset is one the peer could have meant.

A pool entry keeps sixteen token bytes and no mark of whether they were ever supplied, and
`addInitial` leaves them zero.  Over every run an entry either carries a token the peer sent
for it or is the initial one in the first slot, so the reports that nothing justifies are
those of datagrams that end in sixteen zero bytes while that entry is in use.
-/
import Netz.Lib.Machine
import Netz.Quic.ConnectionId

namespace Netz.Quic

open Lib List

namespace PeerPool

abbrev History := List (Event PeerPool Op (Except Error Unit))

def zeroToken : ResetToken := Vector.replicate 16 0

/-- The call hands in this id and token as the peer's, and is accepted. -/
def Supplies (e : Event PeerPool Op (Except Error Unit)) (entry : CidEntry) : Prop :=
  e.output = .ok () ∧
    match e.input with
    | .addWithLimit sequenceNumber connectionId token _ =>
      entry.sequenceNumber = sequenceNumber ∧ entry.connectionId = connectionId ∧
        entry.statelessResetToken = token
    | .addWithRetirePriorTo frame _ =>
      entry.sequenceNumber = frame.sequenceNumber ∧ entry.connectionId = frame.connectionId ∧
        entry.statelessResetToken = frame.statelessResetToken
    | _ => False

/-- At some point the peer supplied this token for this connection id. -/
def Supplied (history : History) (entry : CidEntry) : Prop := ∃ e ∈ history, Supplies e entry

/-- Entries that differ at most in being used. -/
def SameId (old new : CidEntry) : Prop :=
  new.sequenceNumber = old.sequenceNumber ∧ new.connectionId = old.connectionId ∧
    new.statelessResetToken = old.statelessResetToken

lemma SameId.refl (entry : CidEntry) : SameId entry entry := ⟨rfl, rfl, rfl⟩

lemma Supplied.same {history : History} {old new : CidEntry} (h : Supplied history old)
    (hsame : SameId old new) : Supplied history new := by
  obtain ⟨e, he, hok, hmatch⟩ := h
  obtain ⟨hseq, hcid, htoken⟩ := hsame
  refine ⟨e, he, hok, ?_⟩
  cases hin : e.input with
  | addWithLimit sequenceNumber connectionId token limit =>
    rw [hin] at hmatch
    exact ⟨hseq.trans hmatch.1, hcid.trans hmatch.2.1, htoken.trans hmatch.2.2⟩
  | addWithRetirePriorTo frame limit =>
    rw [hin] at hmatch
    exact ⟨hseq.trans hmatch.1, hcid.trans hmatch.2.1, htoken.trans hmatch.2.2⟩
  | _ => simp [hin] at hmatch

/-! ### What one call does to a slot -/

/-- Every occupied slot of `pool'` was occupied by the same id in `pool`. -/
def Shrinks (pool pool' : PeerPool) : Prop :=
  ∀ (i : Nat) (entry : CidEntry), pool'.entries[i]? = some entry → entry.occupied = true →
    ∃ old, pool.entries[i]? = some old ∧ old.occupied = true ∧ SameId old entry

namespace Shrinks

lemma of_entries {pool pool' : PeerPool} (h : pool'.entries = pool.entries) :
    Shrinks pool pool' := by
  intro i entry hget hocc
  rw [h] at hget
  exact ⟨entry, hget, hocc, .refl entry⟩

lemma trans {pool pool' pool'' : PeerPool} (h : Shrinks pool pool')
    (h' : Shrinks pool' pool'') : Shrinks pool pool'' := by
  intro i entry hget hocc
  obtain ⟨mid, hmid, hmidocc, hs'⟩ := h' i entry hget hocc
  obtain ⟨old, hold, holdocc, hs⟩ := h i mid hmid hmidocc
  exact ⟨old, hold, holdocc, hs'.1.trans hs.1, hs'.2.1.trans hs.2.1, hs'.2.2.trans hs.2.2⟩

lemma set {pool pool' : PeerPool} {index : Nat} {new : CidEntry}
    (h : pool'.entries = pool.entries.set index new)
    (hnew : new.occupied = true → ∃ old, pool.entries[index]? = some old ∧
      old.occupied = true ∧ SameId old new) : Shrinks pool pool' := by
  intro i entry hget hocc
  rw [h, getElem?_set] at hget
  by_cases hi : index = i
  · subst hi
    rw [if_pos rfl] at hget
    by_cases hlt : index < pool.entries.length
    · rw [if_pos hlt, Option.some.injEq] at hget
      rw [← hget] at hocc ⊢
      exact hnew hocc
    · simp [hlt] at hget
  · rw [if_neg hi] at hget
    exact ⟨entry, hget, hocc, .refl entry⟩

end Shrinks

@[simp] lemma queueRetire_entries (pool : PeerPool) (sequenceNumber : Nat) :
    (pool.queueRetire sequenceNumber).2.entries = pool.entries := by
  unfold queueRetire
  split
  · rfl
  · split <;> rfl

lemma retireEntries_shrinks (bound remaining : Nat) :
    ∀ (pool : PeerPool) (index : Nat), Shrinks pool (pool.retireEntries bound remaining index).2 := by
  induction remaining with
  | zero => intro pool index; exact .of_entries rfl
  | succ remaining ih =>
    intro pool index
    unfold retireEntries
    cases hget : pool.entries[index]? with
    | none => exact .of_entries rfl
    | some entry =>
      dsimp only
      by_cases hbelow : entry.occupied = true ∧ entry.sequenceNumber < bound
      · rw [if_pos hbelow]
        have hentries := pool.queueRetire_entries entry.sequenceNumber
        rcases hqueue : pool.queueRetire entry.sequenceNumber with ⟨result, queued⟩
        rw [hqueue] at hentries
        cases result with
        | error e => exact .of_entries hentries
        | ok u =>
          refine Shrinks.trans (Shrinks.trans (.of_entries hentries) ?_) (ih _ (index + 1))
          exact Shrinks.set rfl (fun hocc => by simp at hocc)
      · rw [if_neg hbelow]
        exact ih pool (index + 1)

lemma retirePriorTo_shrinks (pool : PeerPool) (sequenceNumber : Nat) :
    Shrinks pool (pool.retirePriorTo sequenceNumber).2 := by
  unfold retirePriorTo
  by_cases hle : sequenceNumber ≤ pool.largestRetirePriorTo
  · rw [if_pos hle]
    exact .of_entries rfl
  rw [if_neg hle]
  have hshrinks := retireEntries_shrinks sequenceNumber maxPoolSize pool 0
  rcases hretire : pool.retireEntries sequenceNumber maxPoolSize 0 with ⟨result, retired⟩
  rw [hretire] at hshrinks
  cases result with
  | error e => exact hshrinks
  | ok u => exact hshrinks.trans (.of_entries rfl)

lemma findIdx_occupied {pool : PeerPool} {p : CidEntry → Bool} {index : Nat}
    (hfind : pool.entries.findIdx? (fun e => e.occupied && p e) = some index) :
    pool.entries[index]? = some (pool.entries.getD index {}) ∧
      (pool.entries.getD index {}).occupied = true := by
  obtain ⟨hlt, hp, -⟩ := findIdx?_eq_some_iff_getElem.mp hfind
  rw [getD_eq_getElem?_getD, getElem?_eq_getElem hlt]
  exact ⟨rfl, (Bool.and_eq_true _ _ ▸ hp).1⟩

lemma consumeUnused_shrinks (pool : PeerPool) : Shrinks pool pool.consumeUnused.2 := by
  unfold consumeUnused
  cases hfind : pool.entries.findIdx? (fun e => e.occupied && !e.inUse) with
  | none => exact .of_entries rfl
  | some index =>
    obtain ⟨hget, hocc⟩ := findIdx_occupied hfind
    exact Shrinks.set rfl (fun _ => ⟨_, hget, hocc, rfl, rfl, rfl⟩)

lemma markInUse_shrinks (pool : PeerPool) (sequenceNumber : Nat) :
    Shrinks pool (pool.markInUse sequenceNumber).2 := by
  unfold markInUse
  cases hfind : pool.entries.findIdx?
      (fun e => e.occupied && e.sequenceNumber == sequenceNumber) with
  | none => exact .of_entries rfl
  | some index =>
    obtain ⟨hget, hocc⟩ := findIdx_occupied hfind
    exact Shrinks.set rfl (fun _ => ⟨_, hget, hocc, rfl, rfl, rfl⟩)

lemma addWithLimit_slot {pool : PeerPool} {sequenceNumber : Nat} {connectionId : Bytes}
    {token : ResetToken} {activeLimit i : Nat} {entry : CidEntry}
    (hget : (pool.addWithLimit sequenceNumber connectionId token activeLimit).2.entries[i]?
      = some entry) :
    pool.entries[i]? = some entry ∨
      ((pool.addWithLimit sequenceNumber connectionId token activeLimit).1 = .ok () ∧
        entry.sequenceNumber = sequenceNumber ∧ entry.connectionId = connectionId ∧
        entry.statelessResetToken = token) := by
  unfold addWithLimit at hget ⊢
  by_cases hlen : connectionId.length = 0 ∨ maxConnectionIdLen < connectionId.length
  · rw [if_pos hlen] at hget
    exact .inl hget
  rw [if_neg hlen] at hget ⊢
  cases hfind : pool.entries.find? (fun e => e.occupied && e.sequenceNumber == sequenceNumber) with
  | some old =>
    rw [hfind] at hget
    refine .inl ?_
    dsimp only at hget
    split at hget
    · exact hget
    · split at hget <;> exact hget
  | none =>
    rw [hfind] at hget
    rcases hslot : pool.availableAddSlot connectionId token activeLimit with e | slot
    · rw [hslot] at hget
      exact .inl hget
    rw [hslot] at hget
    cases slot with
    | none => exact .inl hget
    | some index =>
      rw [getElem?_set] at hget
      by_cases hi : index = i
      · rw [if_pos hi] at hget
        by_cases hlt : index < pool.entries.length
        · rw [if_pos hlt, Option.some.injEq] at hget
          simp [← hget]
        · simp [hlt] at hget
      · rw [if_neg hi] at hget
        exact .inl hget

/-- **An occupied slot after a call held the same id before it, is the initial one, or holds
what the call supplied.** -/
theorem step_slot (pool : PeerPool) (op : Op) {i : Nat} {entry : CidEntry}
    (hget : (pool.step op).2.entries[i]? = some entry) (hocc : entry.occupied = true) :
    (∃ old, pool.entries[i]? = some old ∧ old.occupied = true ∧ SameId old entry) ∨
      (i = 0 ∧ entry.statelessResetToken = zeroToken) ∨ Supplies (event step pool op) entry := by
  cases op with
  | addInitial connectionId =>
    unfold step addInitial at hget
    dsimp only at hget
    by_cases hlen : maxConnectionIdLen < connectionId.length
    · rw [if_pos hlen] at hget
      exact .inl ⟨entry, hget, hocc, .refl entry⟩
    rw [if_neg hlen, getElem?_set] at hget
    by_cases hi : 0 = i
    · rw [if_pos hi] at hget
      by_cases hlt : 0 < pool.entries.length
      · rw [if_pos hlt, Option.some.injEq] at hget
        rw [← hget]
        exact .inr (.inl ⟨hi.symm, rfl⟩)
      · simp [hlt] at hget
    · rw [if_neg hi] at hget
      exact .inl ⟨entry, hget, hocc, .refl entry⟩
  | addWithLimit sequenceNumber connectionId token activeLimit =>
    rcases addWithLimit_slot hget with hold | hnew
    · exact .inl ⟨entry, hold, hocc, .refl entry⟩
    · exact .inr (.inr hnew)
  | addWithRetirePriorTo frame activeLimit =>
    have hshrinks := pool.retirePriorTo_shrinks frame.retirePriorTo
    have hres : (event step pool (.addWithRetirePriorTo frame activeLimit)).output
        = (pool.addWithRetirePriorTo frame activeLimit).1 := rfl
    unfold step at hget
    unfold Supplies
    rw [hres]
    dsimp only at hget
    unfold addWithRetirePriorTo at hget ⊢
    by_cases hlarge : frame.sequenceNumber < frame.retirePriorTo
    · rw [if_pos hlarge] at hget
      exact .inl ⟨entry, hget, hocc, .refl entry⟩
    rw [if_neg hlarge] at hget ⊢
    rcases hretire : pool.retirePriorTo frame.retirePriorTo with ⟨result, retired⟩
    rw [hretire] at hget hshrinks
    cases result with
    | error e => exact .inl (hshrinks i entry hget hocc)
    | ok u =>
      dsimp only at hget ⊢
      by_cases hstale : frame.sequenceNumber < retired.largestRetirePriorTo
      · rw [if_pos hstale, queueRetire_entries] at hget
        exact .inl (hshrinks i entry hget hocc)
      rw [if_neg hstale] at hget ⊢
      rcases addWithLimit_slot hget with hold | hnew
      · exact .inl (hshrinks i entry hold hocc)
      · exact .inr (.inr hnew)
  | retirePriorTo sequenceNumber =>
    exact .inl (pool.retirePriorTo_shrinks sequenceNumber i entry hget hocc)
  | consumeUnused => exact .inl (pool.consumeUnused_shrinks i entry hget hocc)
  | markInUse sequenceNumber => exact .inl (pool.markInUse_shrinks sequenceNumber i entry hget hocc)
  | discardRetireFrame => exact .inl ⟨entry, hget, hocc, .refl entry⟩

/-! ### Over a run -/

/-- Every active id has a token the peer supplied, or is the initial one. -/
def Accounted (history : History) (pool : PeerPool) : Prop :=
  ∀ (i : Nat) (entry : CidEntry), pool.entries[i]? = some entry → entry.occupied = true →
    Supplied history entry ∨ (i = 0 ∧ entry.statelessResetToken = zeroToken)

lemma reachable_accounted (ops : List Op) : Accounted (trace step {} ops) (exec step {} ops) := by
  refine trace_induction step (fun _ _ => True) Accounted ?_ ?_ ops (fun _ _ => trivial)
  · intro i entry hget hocc
    have hempty : entry = {} := eq_of_mem_replicate (mem_of_getElem? hget)
    simp [hempty] at hocc
  intro history pool op h _ i entry hget hocc
  rcases step_slot pool op hget hocc with ⟨old, hold, holdocc, hsame⟩ | hinit | hnew
  · rcases h i old hold holdocc with hsupplied | ⟨hi, htoken⟩
    · obtain ⟨e, he, hs⟩ := hsupplied.same hsame
      exact .inl ⟨e, mem_append_left _ he, hs⟩
    · exact .inr ⟨hi, hsame.2.2.trans htoken⟩
  · exact .inr hinit
  · exact .inl ⟨_, mem_append_right _ mem_cons_self, hnew⟩

/-! ### What a report rests on -/

variable {verifyTruncated : ResetToken → ResetToken → Bool}

lemma matchesTokenSlice_iff (hverify : ∀ a b, verifyTruncated a b = true ↔ a = b)
    (candidate : Bytes) (token : ResetToken) :
    matchesTokenSlice verifyTruncated candidate token = true ↔ candidate = token.toList := by
  unfold matchesTokenSlice
  by_cases hlen : candidate.length = tokenLen
  · rw [dif_pos hlen, hverify]
    constructor
    · intro h
      rw [← h]
      rfl
    intro h
    apply Vector.toList_inj.mp
    exact h
  rw [dif_neg hlen]
  refine iff_of_false (by simp) (fun h => hlen ?_)
  rw [h, Vector.length_toList]
  rfl

/-- The sixteen bytes a reset token would stand in. -/
def lastBytes (datagram : Bytes) : Bytes := datagram.drop (datagram.length - tokenLen)

lemma statelessResetEntry_some (hverify : ∀ a b, verifyTruncated a b = true ↔ a = b)
    {pool : PeerPool} {datagram : Bytes} {entry : CidEntry}
    (h : pool.statelessResetEntry verifyTruncated datagram = some entry) :
    pool.inUseCount ≠ 0 ∧ minDatagramLen ≤ datagram.length ∧ entry ∈ pool.entries ∧
      entry.occupied = true ∧ entry.inUse = true ∧
      lastBytes datagram = entry.statelessResetToken.toList := by
  unfold statelessResetEntry at h
  obtain ⟨hcount, h⟩ := of_guard h nofun
  obtain ⟨hshort, h⟩ := of_guard h nofun
  have hp := find?_some h
  simp only [Bool.and_eq_true] at hp
  exact ⟨hcount, not_lt.mp hshort, mem_of_find?_eq_some h, hp.1.1, hp.1.2,
    (matchesTokenSlice_iff hverify _ _).mp hp.2⟩

/-- What a reported reset should rest on: a token the peer supplied for an id in use. -/
def ResetJustified (verifyTruncated : ResetToken → ResetToken → Bool) (ops : List Op)
    (datagram : Bytes) : Prop :=
  ∀ entry, (exec step {} ops).statelessResetEntry verifyTruncated datagram = some entry →
    entry ∈ (exec step {} ops).entries ∧ entry.occupied = true ∧ entry.inUse = true ∧
      lastBytes datagram = entry.statelessResetToken.toList ∧ Supplied (trace step {} ops) entry

/-- The datagram ends in zeros while the first slot holds, in use, an id that came without a
token. -/
def ForgesReset (ops : List Op) (datagram : Bytes) : Prop :=
  minDatagramLen ≤ datagram.length ∧ lastBytes datagram = replicate tokenLen 0 ∧
    (exec step {} ops).inUseCount ≠ 0 ∧
    ∃ entry, (exec step {} ops).entries[0]? = some entry ∧ entry.occupied = true ∧
      entry.inUse = true ∧ entry.statelessResetToken = zeroToken ∧
      ¬ Supplied (trace step {} ops) entry

/-- **A report is justified unless zeros meet an initial id that is in use.** -/
theorem reset_justified_iff (verifyTruncated : ResetToken → ResetToken → Bool)
    (hverify : ∀ a b, verifyTruncated a b = true ↔ a = b) (ops : List Op) (datagram : Bytes) :
    ResetJustified verifyTruncated ops datagram ↔ ¬ ForgesReset ops datagram := by
  constructor
  · rintro h ⟨hlen, hzero, hcount, entry, hget, hocc, huse, htoken, hnone⟩
    have hfound : (exec step {} ops).statelessResetEntry verifyTruncated datagram = some entry := by
      unfold statelessResetEntry
      rw [if_neg hcount, if_neg (not_lt.mpr hlen)]
      cases hentries : (exec step {} ops).entries with
      | nil => simp [hentries] at hget
      | cons first rest =>
        rw [hentries] at hget
        have hfirst : first = entry := by simpa using hget
        have hmatch : matchesTokenSlice verifyTruncated (lastBytes datagram)
            entry.statelessResetToken = true := by
          rw [matchesTokenSlice_iff hverify, hzero, htoken]
          rfl
        rw [hfirst]
        apply find?_cons_of_pos
        rw [hocc, huse]
        exact hmatch
    exact hnone (h entry hfound).2.2.2.2
  intro h entry hfound
  obtain ⟨hcount, hlen, hmem, hocc, huse, htail⟩ := statelessResetEntry_some hverify hfound
  refine ⟨hmem, hocc, huse, htail, ?_⟩
  obtain ⟨i, hget⟩ := getElem?_of_mem hmem
  rcases reachable_accounted ops i entry hget hocc with hsupplied | ⟨hi, htoken⟩
  · exact hsupplied
  by_contra hnone
  subst hi
  refine h ⟨hlen, ?_, hcount, entry, hget, hocc, huse, htoken, hnone⟩
  rw [htail, htoken]
  rfl

/-- A peer that announces an id, and the reset of that id once it is used. -/
def announcedReset : List Op × Bytes :=
  ([.addInitial [1, 2, 3],
    .addWithRetirePriorTo
      { sequenceNumber := 1
        retirePriorTo := 0
        connectionId := [4, 5, 6]
        statelessResetToken := Vector.replicate 16 7 } 4, .markInUse 1],
   [0x40, 1, 2, 3, 4] ++ replicate 16 7)

theorem announced_reset_is_justified :
    (exec step {} announcedReset.1).detectStatelessReset (fun a b => a == b) announcedReset.2
        = some 1 ∧ ResetJustified (fun a b => a == b) announcedReset.1 announcedReset.2 :=
  ⟨by decide, (reset_justified_iff (fun a b => a == b) (fun a b => beq_iff_eq) announcedReset.1
    announcedReset.2).mpr (fun h => absurd h.2.1 (by decide))⟩

/-- Zeros reset a connection whose peer supplied no token at all. -/
theorem zeros_reset_initial_id :
    (exec step {} [.addInitial [1, 2, 3]]).detectStatelessReset (fun a b => a == b)
        ([0x40, 1, 2, 3, 4] ++ replicate 16 0) = some 0 ∧
      ¬ ResetJustified (fun a b => a == b) [.addInitial [1, 2, 3]]
        ([0x40, 1, 2, 3, 4] ++ replicate 16 0) := by
  refine ⟨by decide, fun h => ?_⟩
  obtain ⟨-, -, -, -, e, he, hs⟩ :=
    h { connectionId := [1, 2, 3], inUse := true, occupied := true } (by decide)
  have hfirst := mem_singleton.mp he
  rw [hfirst] at hs
  exact hs.2

end PeerPool

end Netz.Quic
