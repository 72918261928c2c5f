/-
The operations of the replay filter.

In a `Sound` filter the map leads to the places of the keys, `earliestIndex` is the place of an
entry that expires first, and there are at most `maxEntries` entries.  Every operation keeps a
filter sound and never panics, and what it does to the entries is said up to their order.
-/
import Netz.Quic.ReplayFilter

namespace Netz.Quic.ReplayFilter

open Lib Entry Table List Option

variable {κ : Type}

/-- The key of an entry, for the index. -/
def Entry.keys (entry : Entry κ) : List κ := [entry.key]

namespace Filter

variable {entry : Entry κ} {nowMs : Nat} {entries : List (Entry κ)}

lemma expiryAt_eq {filter : Filter κ} {index : Nat} (h : filter.entries[index]? = some entry) :
    filter.expiryAt index = .ok entry.expiresAtMs := by
  unfold expiryAt
  rw [h]

/-! ### Expiry -/

/-- The entries that have not expired. -/
def live (nowMs : Nat) (entries : List (Entry κ)) : List (Entry κ) :=
  entries.filter fun entry => nowMs < entry.expiresAtMs

lemma mem_live : entry ∈ live nowMs entries ↔ entry ∈ entries ∧ nowMs < entry.expiresAtMs := by
  unfold live
  rw [mem_filter, decide_eq_true_eq]

lemma live_perm {nowMs : Nat} {entries entries' : List (Entry κ)}
    (h : entries.Perm entries') : (live nowMs entries).Perm (live nowMs entries') :=
  h.filter _

lemma live_eq_self (h : ∀ entry ∈ entries, nowMs < entry.expiresAtMs) :
    live nowMs entries = entries :=
  filter_eq_self.mpr fun entry hmem => decide_eq_true (h entry hmem)

lemma live_cons_expired (entries : List (Entry κ)) (h : entry.expiresAtMs ≤ nowMs) :
    live nowMs (entry :: entries) = live nowMs entries :=
  filter_cons_of_neg (by rw [decide_eq_true_eq]; exact Nat.not_lt.mpr h)

/-! ### The entry that expires first -/

lemma earliestExpiryIndex_eq {filter : Filter κ} {index : Nat}
    (h : filter.earliestIndex = some index) : filter.earliestExpiryIndex = .ok index := by
  unfold earliestExpiryIndex
  rw [h]

lemma scanEarliest_spec {filter : Filter κ} (rest : List (Entry κ)) (seen : List (Entry κ))
    {earliest : Nat} (hsplit : filter.entries = seen ++ rest)
    (hleast : Least expiresAtMs seen (some earliest)) :
    ∃ found, filter.scanEarliest rest seen.length earliest = .ok found ∧
      Least expiresAtMs filter.entries (some found) := by
  induction rest generalizing seen earliest with
  | nil =>
    rw [append_nil] at hsplit
    exact ⟨earliest, rfl, by rw [hsplit]; exact hleast⟩
  | cons entry rest ih =>
    obtain ⟨best, hbest, hall⟩ := id hleast
    have hat : filter.entries[earliest]? = some best := by
      rw [hsplit, List.getElem?_append_left (lt_of_getElem? hbest), hbest]
    have hsplit' : filter.entries = seen ++ [entry] ++ rest := by
      rw [hsplit, append_assoc, singleton_append]
    obtain ⟨found, hfound, hspec⟩ := ih (seen ++ [entry]) hsplit' (hleast.append hbest)
    refine ⟨found, ?_, hspec⟩
    unfold scanEarliest
    rw [expiryAt_eq hat]
    rw [length_append] at hfound
    exact hfound

lemma recomputeEarliest_spec (filter : Filter κ) :
    ∃ earliest, filter.recomputeEarliest = .ok { filter with earliestIndex := earliest } ∧
      Least expiresAtMs filter.entries earliest := by
  unfold recomputeEarliest
  cases hentries : filter.entries with
  | nil => exact ⟨none, rfl, rfl⟩
  | cons first rest =>
    obtain ⟨found, hfound, hspec⟩ :=
      @scanEarliest_spec _ filter rest [first] 0 hentries (Least.singleton first)
    rw [hentries] at hspec
    refine ⟨some found, ?_, hspec⟩
    rw [if_neg (by rw [length_cons]; omega), drop_one, tail_cons]
    rw [length_singleton] at hfound
    rw [hfound]
    rfl

lemma considerEarliest_spec {filter : Filter κ} {entries : List (Entry κ)} {entry : Entry κ}
    (hentries : filter.entries = entries ++ [entry])
    (hleast : Least expiresAtMs entries filter.earliestIndex) :
    ∃ earliest, filter.considerEarliest entries.length =
        .ok { filter with earliestIndex := earliest } ∧
      Least expiresAtMs filter.entries earliest := by
  unfold considerEarliest
  cases hmin : filter.earliestIndex with
  | none =>
    rw [hmin] at hleast
    refine ⟨some entries.length, rfl, ?_⟩
    rw [hentries, show entries = [] from hleast]
    exact Least.singleton entry
  | some earliest =>
    rw [hmin] at hleast
    obtain ⟨best, hbest, hall⟩ := id hleast
    have hat : filter.entries[earliest]? = some best := by
      rw [hentries, List.getElem?_append_left (lt_of_getElem? hbest), hbest]
    have hlast : filter.entries[entries.length]? = some entry := by
      rw [hentries, getElem?_concat_length]
    refine ⟨some (if entry.expiresAtMs < best.expiresAtMs then entries.length else earliest),
      ?_, by rw [hentries]; exact hleast.append hbest⟩
    dsimp only
    rw [expiryAt_eq hat, expiryAt_eq hlast]
    dsimp only [bind, Except.bind, pure, Except.pure]
    by_cases hlt : entry.expiresAtMs < best.expiresAtMs
    · rw [if_pos hlt, if_pos hlt]
    · rw [if_neg hlt, if_neg hlt, ← hmin]

/-! ### Entries -/

variable [DecidableEq κ]

/-- **A removal takes out the one entry.**  The index may hold keys that are not in the list. -/
theorem removeEntryAt_spec {filter : Filter κ} {t : Table κ Nat} {index : Nat}
    {removed : Entry κ} (hpositions : Positions Entry.keys filter.entries t)
    (hknown : ∀ entry ∈ filter.entries, (filter.entryIndex.get entry.key).isSome = true)
    (hleast : Least expiresAtMs filter.entries filter.earliestIndex)
    (hremoved : filter.entries[index]? = some removed) :
    ∃ earliest, filter.removeEntryAt index = .ok { filter with
        entries := swapRemove filter.entries index
        entryIndex := refreshEntry Entry.keys (swapRemove filter.entries index)
          (filter.entryIndex.removeKeys removed.keys) index
        earliestIndex := earliest } ∧
      Least expiresAtMs (swapRemove filter.entries index) earliest := by
  have hlt := lt_of_getElem? hremoved
  have hrepair : repairIndex { filter with
      entries := swapRemove filter.entries index
      entryIndex := filter.entryIndex.remove removed.key } index (filter.entries.length - 1) =
      .ok { filter with
        entries := swapRemove filter.entries index
        entryIndex := refreshEntry Entry.keys (swapRemove filter.entries index)
          (filter.entryIndex.removeKeys removed.keys) index } := by
    unfold repairIndex refreshEntry
    rw [getElem?_swapRemove hlt, if_pos rfl]
    by_cases hend : index = filter.entries.length - 1
    · rw [if_pos hend, if_neg (by omega)]
      rfl
    obtain ⟨moved, hmoved⟩ : ∃ moved, filter.entries[filter.entries.length - 1]? = some moved :=
      ⟨_, List.getElem?_eq_getElem (by omega)⟩
    rw [if_neg hend, if_pos (by omega), hmoved]
    have hother : moved.key ≠ removed.key := by
      intro hkey
      exact hend (hpositions.unique hremoved hmoved (List.mem_singleton_self _)
        (List.mem_singleton.mpr hkey.symm))
    dsimp only
    rw [if_pos (by
      rw [get_remove, if_neg hother]
      exact hknown moved (List.mem_of_getElem? hmoved))]
    rfl
  unfold removeEntryAt
  rw [hremoved]
  dsimp only
  rw [hrepair]
  dsimp only [bind, Except.bind]
  rw [length_swapRemove hlt]
  by_cases hempty : filter.entries.length - 1 = 0
  · rw [if_pos hempty]
    exact ⟨none, rfl, List.eq_nil_of_length_eq_zero (by rw [length_swapRemove hlt, hempty])⟩
  rw [if_neg hempty]
  by_cases hfirst : filter.earliestIndex = some index
  · rw [if_pos hfirst]
    exact recomputeEarliest_spec _
  rw [if_neg hfirst]
  cases hmin : filter.earliestIndex with
  | none =>
    rw [hmin] at hleast
    simp [show filter.entries = [] from hleast] at hlt
  | some earliest =>
    rw [hmin] at hleast hfirst
    have hmoved := hleast.swapRemove hlt (fun h => hfirst (congrArg some h))
    by_cases hlast : earliest = filter.entries.length - 1
    · rw [if_pos (congrArg some hlast)]
      rw [if_pos hlast] at hmoved
      exact ⟨some index, rfl, hmoved⟩
    rw [if_neg (fun h => hlast (some.inj h))]
    rw [if_neg hlast] at hmoved
    exact ⟨some earliest, by rw [← hmin], hmoved⟩

lemma appendEntry_spec {filter : Filter κ} {t : Table κ Nat} {entry : Entry κ} {value : Nat}
    (hpositions : Positions Entry.keys filter.entries t) (hnew : t.get entry.key = none)
    (hslot : ∀ k, filter.entryIndex.get k = if k = entry.key then some value else t.get k)
    (hleast : Least expiresAtMs filter.entries filter.earliestIndex) :
    ∃ next, filter.appendEntryAssumeCapacity entry = .ok next ∧
      next.entries = filter.entries ++ [entry] ∧
      Positions Entry.keys next.entries next.entryIndex ∧
      Least expiresAtMs next.entries next.earliestIndex ∧ next.maxEntries = filter.maxEntries := by
  obtain ⟨earliest, happend, hnext⟩ := @considerEarliest_spec _ { filter with
    entries := filter.entries ++ [entry]
    entryIndex := filter.entryIndex.assign entry.key filter.entries.length } filter.entries entry
    rfl hleast
  refine ⟨_, happend, rfl, ?_, hnext, rfl⟩
  have hall : ∀ k, (filter.entryIndex.assign entry.key filter.entries.length).get k =
      (t.put entry.key filter.entries.length).get k := by
    intro k
    rw [get_assign, get_put hnew, hslot, hslot, if_pos rfl, map_some]
    by_cases hk : k = entry.key
    · rw [if_pos hk, if_pos hk]
    · rw [if_neg hk, if_neg hk, if_neg hk]
  intro k i
  rw [hall]
  exact hpositions.append rfl hnew k i

lemma get_refreshEntry_put {entries : List (Entry κ)} {t : Table κ Nat} {key : κ}
    {index value : Nat} {removed : κ} (hnew : t.get key = none) (hremoved : removed ≠ key)
    (hother : ∀ entry ∈ entries, entry.key ≠ key) (k : κ) :
    (refreshEntry Entry.keys entries ((t.put key value).removeKeys [removed]) index).get k =
      if k = key then some value
      else (refreshEntry Entry.keys entries (t.removeKeys [removed]) index).get k := by
  unfold refreshEntry
  cases hent : entries[index]? with
  | none =>
    rw [get_removeKeys, get_removeKeys, get_put hnew]
    by_cases hk : k = key
    · rw [if_neg (by rw [hk, mem_singleton]; exact Ne.symm hremoved), if_pos hk, if_pos hk]
    · rw [if_neg hk, if_neg hk]
  | some moved =>
    have hmoved := hother moved (mem_of_getElem? hent)
    rw [get_assignKeys, get_assignKeys, get_removeKeys, get_removeKeys, get_put hnew]
    by_cases hk : k = key
    · have hout : k ∉ moved.keys := by
        intro hmem
        exact hmoved ((mem_singleton.mp hmem).symm.trans hk)
      rw [if_neg hout, if_pos hk, if_neg (by
        rw [hk, mem_singleton]
        exact Ne.symm hremoved)]
      rw [if_pos hk]
    · rw [if_neg hk, if_neg hk]

/-! ### Sound filters -/

structure Sound (filter : Filter κ) : Prop where
  index : Positions Entry.keys filter.entries filter.entryIndex
  earliest : Least expiresAtMs filter.entries filter.earliestIndex
  bounded : filter.entries.length ≤ filter.maxEntries
  capacity : 0 < filter.maxEntries

variable {maxEntries : Nat} {filter : Filter κ} {entry : Entry κ}

lemma Sound.init (h : init maxEntries = .ok filter) :
    filter.Sound ∧ filter = { maxEntries := maxEntries } := by
  unfold Filter.init at h
  obtain ⟨hzero, h⟩ := of_guard h nofun
  cases h
  exact ⟨⟨Positions.empty, rfl, Nat.zero_le _, Nat.pos_of_ne_zero hzero⟩, rfl⟩

lemma Sound.keys_nodup (h : filter.Sound) : (filter.entries.map Entry.key).Nodup := by
  have hnodup := h.index.nodup fun entry => nodup_singleton entry.key
  rwa [show filter.entries.flatMap Entry.keys = filter.entries.map Entry.key from
    flatMap_pure_eq_map ..] at hnodup

lemma Sound.get_isSome (h : filter.Sound) (key : κ) :
    (filter.entryIndex.get key).isSome = true ↔ ∃ entry ∈ filter.entries, entry.key = key := by
  cases hget : filter.entryIndex.get key with
  | none =>
    refine iff_of_false nofun ?_
    rintro ⟨entry, hmem, hkey⟩
    exact h.index.get_eq_none.mp hget entry hmem (mem_singleton.mpr hkey.symm)
  | some i =>
    obtain ⟨entry, hi, hkey⟩ := (h.index key i).mp hget
    exact iff_of_true rfl ⟨entry, mem_of_getElem? hi, (mem_singleton.mp hkey).symm⟩

lemma Sound.known (h : filter.Sound) :
    ∀ entry ∈ filter.entries, (filter.entryIndex.get entry.key).isSome = true :=
  fun entry hmem => (h.get_isSome entry.key).mpr ⟨entry, hmem, rfl⟩

/-- A filter that is full has an entry that expires first. -/
theorem Sound.first {filter : Filter κ} (h : filter.Sound)
    (hfull : filter.entries.length = filter.maxEntries) :
    ∃ earliest first, filter.earliestIndex = some earliest ∧
      filter.entries[earliest]? = some first ∧
      ∀ known ∈ filter.entries, first.expiresAtMs ≤ known.expiresAtMs := by
  have hcap := h.capacity
  have hleast := h.earliest
  cases hmin : filter.earliestIndex with
  | none =>
    rw [hmin] at hleast
    rw [show filter.entries = [] from hleast, length_nil] at hfull
    omega
  | some earliest =>
    rw [hmin] at hleast
    obtain ⟨first, hfirst, hall⟩ := hleast
    exact ⟨earliest, first, rfl, hfirst, hall⟩

/-- **A removal.** -/
theorem Sound.removeEntryAt (h : filter.Sound) {index : Nat} {removed : Entry κ}
    (hremoved : filter.entries[index]? = some removed) :
    ∃ next, filter.removeEntryAt index = .ok next ∧ next.Sound ∧
      next.entries = swapRemove filter.entries index ∧ next.maxEntries = filter.maxEntries := by
  obtain ⟨earliest, hremove, hleast⟩ :=
    removeEntryAt_spec h.index h.known h.earliest hremoved
  refine ⟨_, hremove, ⟨h.index.swapRemove hremoved, hleast, ?_, h.capacity⟩, rfl, rfl⟩
  have hbnd := h.bounded
  dsimp only
  rw [length_swapRemove (lt_of_getElem? hremoved)]
  omega

/-! ### Pruning -/

lemma Sound.pruneLoop {nowMs rounds index removed : Nat} {filter : Filter κ} (h : filter.Sound)
    (hkept : ∀ entry ∈ filter.entries.take index, nowMs < entry.expiresAtMs)
    (hfuel : filter.entries.length - index < rounds) :
    ∃ count next, pruneLoop nowMs rounds index removed filter = .ok (count, next) ∧ next.Sound ∧
      next.entries.Perm (live nowMs filter.entries) ∧ next.maxEntries = filter.maxEntries := by
  induction rounds generalizing index removed filter with
  | zero => omega
  | succ rounds ih =>
    unfold Filter.pruneLoop
    cases hent : filter.entries[index]? with
    | none =>
      have hend := getElem?_eq_none_iff.mp hent
      rw [take_of_length_le hend] at hkept
      exact ⟨removed, filter, rfl, h, by rw [live_eq_self hkept], rfl⟩
    | some entry =>
      have hlt := lt_of_getElem? hent
      dsimp only
      by_cases hexp : entry.expiresAtMs ≤ nowMs
      · rw [if_pos hexp]
        obtain ⟨next, hremove, hsound, hentries, hmax⟩ := h.removeEntryAt hent
        have hlen : next.entries.length = filter.entries.length - 1 := by
          rw [hentries, length_swapRemove hlt]
        obtain ⟨count, last, hloop, hlast, hperm, hmax'⟩ :=
          @ih index (removed + 1) next hsound
            (by rw [hentries, take_swapRemove hlt]; exact hkept) (by omega)
        refine ⟨count, last, ?_, hlast, hperm.trans ?_, hmax'.trans hmax⟩
        · rw [hremove]
          exact hloop
        have hwhole := @live_perm _ nowMs _ _ (swapRemove_perm hent)
        rw [live_cons_expired _ hexp, ← hentries] at hwhole
        exact hwhole.symm
      rw [if_neg hexp]
      refine @ih (index + 1) removed filter h ?_ (by omega)
      intro kept hmem
      rw [take_add_one, hent, toList_some, mem_append, mem_singleton] at hmem
      rcases hmem with hold | rfl
      · exact hkept kept hold
      · exact Nat.lt_of_not_le hexp

/-- **Pruning drops what has expired, and nothing else.** -/
theorem Sound.pruneExpired {nowMs : Nat} {filter : Filter κ} (h : filter.Sound) :
    ∃ count next, filter.pruneExpiredUnlocked nowMs = .ok (count, next) ∧ next.Sound ∧
      next.entries.Perm (live nowMs filter.entries) ∧ next.maxEntries = filter.maxEntries := by
  unfold pruneExpiredUnlocked
  have hleast := h.earliest
  cases hmin : filter.earliestIndex with
  | none =>
    rw [hmin] at hleast
    have hempty : filter.entries = [] := hleast
    exact ⟨0, filter, rfl, h, by rw [hempty]; exact Perm.refl _, rfl⟩
  | some earliest =>
    rw [hmin] at hleast
    obtain ⟨first, hfirst, hall⟩ := hleast
    dsimp only
    rw [expiryAt_eq hfirst]
    dsimp only [bind, Except.bind]
    by_cases hlater : nowMs < first.expiresAtMs
    · rw [if_pos hlater]
      have hlive : live nowMs filter.entries = filter.entries :=
        live_eq_self fun entry hmem => Nat.lt_of_lt_of_le hlater (hall entry hmem)
      exact ⟨0, filter, rfl, h, by rw [hlive], rfl⟩
    rw [if_neg hlater]
    exact @Sound.pruneLoop _ _ nowMs (filter.entries.length + 1) 0 0 filter h
      (fun entry hmem => by rw [take_zero] at hmem; cases hmem) (by omega)

/-! ### A new key -/

/-- What a check does to the entries that have not expired, up to their order: the result, and
the entries behind it. -/
inductive Marks (entries : List (Entry κ)) (maxEntries : Nat) (entry : Entry κ) (room : Room) :
    Except Error Unit → List (Entry κ) → Prop where
  | replayed {after : List (Entry κ)} (hknown : ∃ known ∈ entries, known.key = entry.key)
      (hafter : after.Perm entries) :
      Marks entries maxEntries entry room (.error .replayedEarlyData) after
  | outOfMemory {after : List (Entry κ)} (hnew : ∀ known ∈ entries, known.key ≠ entry.key)
      (hdenied : room.index = false ∨ room.entries = false) (hafter : after.Perm entries) :
      Marks entries maxEntries entry room (.error .outOfMemory) after
  | appended {after : List (Entry κ)} (hnew : ∀ known ∈ entries, known.key ≠ entry.key)
      (hroom : entries.length < maxEntries) (hafter : after.Perm (entry :: entries)) :
      Marks entries maxEntries entry room (.ok ()) after
  | evicted {after rest : List (Entry κ)} {first : Entry κ}
      (hnew : ∀ known ∈ entries, known.key ≠ entry.key) (hfull : entries.length = maxEntries)
      (hfirst : entries.Perm (first :: rest))
      (hleast : ∀ known ∈ entries, first.expiresAtMs ≤ known.expiresAtMs)
      (hafter : after.Perm (entry :: rest)) : Marks entries maxEntries entry room (.ok ()) after

lemma Sound.append (h : filter.Sound) (hnew : filter.entryIndex.get entry.key = none)
    (hroom : filter.entries.length < filter.maxEntries) :
    ∃ next, appendEntryAssumeCapacity
        { filter with entryIndex := filter.entryIndex.put entry.key 0 } entry = .ok next ∧
      next.Sound ∧ next.entries = filter.entries ++ [entry] ∧
      next.maxEntries = filter.maxEntries := by
  obtain ⟨next, happend, hentries, hidx, hleast, hmax⟩ := @appendEntry_spec _ _
    { filter with entryIndex := filter.entryIndex.put entry.key 0 } filter.entryIndex entry 0
    h.index hnew (get_put hnew 0) h.earliest
  refine ⟨next, happend, ⟨hidx, hleast, ?_, by rw [hmax]; exact h.capacity⟩, hentries, hmax⟩
  rw [hentries, hmax, length_append]
  exact hroom

/-- **An eviction takes out an entry that expires first.** -/
theorem Sound.evictFor (h : filter.Sound) (hnew : filter.entryIndex.get entry.key = none)
    (hfull : filter.entries.length = filter.maxEntries) :
    ∃ next first rest,
      evictFor { filter with entryIndex := filter.entryIndex.put entry.key 0 } entry = .ok next ∧
      next.Sound ∧ next.maxEntries = filter.maxEntries ∧
      filter.entries.Perm (first :: rest) ∧
      (∀ known ∈ filter.entries, first.expiresAtMs ≤ known.expiresAtMs) ∧
      next.entries.Perm (entry :: rest) := by
  have hother : ∀ known ∈ filter.entries, known.key ≠ entry.key := fun known hmem hkey =>
    h.index.get_eq_none.mp hnew known hmem (List.mem_singleton.mpr hkey.symm)
  obtain ⟨earliest, first, hmin, hfirst, hall⟩ := h.first hfull
  have hlt := lt_of_getElem? hfirst
  have hmem := List.mem_of_getElem? hfirst
  have hperm := swapRemove_perm hfirst
  have hknown : ∀ known ∈ filter.entries,
      ((filter.entryIndex.put entry.key 0).get known.key).isSome = true := by
    intro known hknown
    rw [get_put hnew, if_neg (hother known hknown)]
    exact h.known known hknown
  obtain ⟨index, hremove, hnext⟩ := @removeEntryAt_spec _ _
    { filter with entryIndex := filter.entryIndex.put entry.key 0 } filter.entryIndex earliest
    first h.index hknown h.earliest hfirst
  have hslot := @get_refreshEntry_put _ _ (swapRemove filter.entries earliest)
    filter.entryIndex entry.key earliest 0 first.key hnew (hother first hmem)
    (fun known hin => hother known (hperm.mem_iff.mpr (List.mem_cons_of_mem _ hin)))
  have hgone : (refreshEntry Entry.keys (swapRemove filter.entries earliest)
      (filter.entryIndex.removeKeys first.keys) earliest).get entry.key = none := by
    refine (h.index.swapRemove hfirst).get_eq_none.mpr fun known hin hkey => ?_
    exact hother known (hperm.mem_iff.mpr (List.mem_cons_of_mem _ hin))
      (List.mem_singleton.mp hkey).symm
  obtain ⟨next, happend, hentries, hidx, hlast, hmax⟩ := @appendEntry_spec _ _
    { filter with
      entries := swapRemove filter.entries earliest
      entryIndex := refreshEntry Entry.keys (swapRemove filter.entries earliest)
        ((filter.entryIndex.put entry.key 0).removeKeys first.keys) earliest
      earliestIndex := index } _ entry 0 (h.index.swapRemove hfirst) hgone hslot hnext
  refine ⟨next, first, swapRemove filter.entries earliest, ?_,
    ⟨hidx, hlast, ?_, by rw [hmax]; exact h.capacity⟩, hmax, hperm, hall, ?_⟩
  · unfold Filter.evictFor
    rw [@earliestExpiryIndex_eq _ { filter with
      entryIndex := filter.entryIndex.put entry.key 0 } earliest hmin]
    dsimp only [bind, Except.bind]
    rw [hremove]
    dsimp only
    rw [if_pos (by
      refine isSome_iff_ne_none.mpr fun hnone => ?_
      have hat := hslot entry.key
      rw [if_pos rfl] at hat
      cases (hat.symm.trans hnone : some 0 = none))]
    exact happend
  · rw [hentries, hmax, List.length_append, List.length_singleton, length_swapRemove hlt]
    dsimp only
    omega
  · simp [hentries]

lemma Sound.mark (h : filter.Sound) (entry : Entry κ) (room : Room) :
    (filter.mark entry room).2.Sound ∧
      (filter.mark entry room).2.maxEntries = filter.maxEntries ∧
      Marks filter.entries filter.maxEntries entry room (filter.mark entry room).1
        (filter.mark entry room).2.entries := by
  unfold Filter.mark
  by_cases hknown : (filter.entryIndex.get entry.key).isSome = true
  · rw [if_pos hknown]
    exact ⟨h, rfl, .replayed ((h.get_isSome entry.key).mp hknown) (Perm.refl _)⟩
  rw [if_neg hknown]
  have hnew : ∀ known ∈ filter.entries, known.key ≠ entry.key := fun known hmem hkey =>
    hknown ((h.get_isSome entry.key).mpr ⟨known, hmem, hkey⟩)
  have hnone : filter.entryIndex.get entry.key = none := by
    rwa [isSome_iff_ne_none, not_not] at hknown
  by_cases hidx : room.index = true
  case neg =>
    rw [if_pos (by rw [Bool.not_eq_true] at hidx; rw [hidx]; rfl)]
    exact ⟨h, rfl, .outOfMemory hnew (.inl ((Bool.not_eq_true _).mp hidx)) (Perm.refl _)⟩
  rw [if_neg (by rw [hidx]; decide)]
  by_cases hroom : filter.entries.length < filter.maxEntries
  · rw [if_pos hroom]
    by_cases hentries : room.entries = true
    · rw [if_neg (by rw [hentries]; decide)]
      obtain ⟨next, happend, hsound, hafter, hmax⟩ := h.append hnone hroom
      rw [happend]
      refine ⟨hsound, hmax, .appended hnew hroom ?_⟩
      simp [show (settle _ (Except.ok next)).2 = next from rfl, hafter]
    rw [if_pos (by rw [Bool.not_eq_true] at hentries; rw [hentries]; rfl)]
    have hback : (filter.entryIndex.put entry.key 0).remove entry.key = filter.entryIndex := by
      have hout := get_eq_none_iff.mp hnone
      unfold put remove
      rw [filter_append, filter_cons_of_neg (by simp), filter_nil, append_nil]
      refine filter_eq_self.mpr fun slot hslot => ?_
      have hne : slot.1 ≠ entry.key := fun hkey => hout (hkey ▸ mem_map_of_mem hslot)
      simp [hne]
    rw [hback]
    exact ⟨h, rfl, .outOfMemory hnew (.inr ((Bool.not_eq_true _).mp hentries))
      (Perm.refl _)⟩
  rw [if_neg hroom]
  have hfull : filter.entries.length = filter.maxEntries :=
    Nat.le_antisymm h.bounded (Nat.le_of_not_lt hroom)
  obtain ⟨next, first, rest, hevict, hsound, hmax, hfirst, hleast, hafter⟩ :=
    h.evictFor hnone hfull
  rw [hevict]
  exact ⟨hsound, hmax, .evicted hnew hfull hfirst hleast hafter⟩

omit [DecidableEq κ] in
lemma Marks.perm {entries entries' after : List (Entry κ)} {room : Room}
    {result : Except Error Unit} (h : Marks entries maxEntries entry room result after)
    (hperm : entries.Perm entries') : Marks entries' maxEntries entry room result after := by
  have hforall : ∀ {p : Entry κ → Prop}, (∀ known ∈ entries, p known) →
      ∀ known ∈ entries', p known := fun hall known hmem => hall known (hperm.mem_iff.mpr hmem)
  cases h with
  | replayed hknown hafter =>
    obtain ⟨known, hmem, hkey⟩ := hknown
    exact .replayed ⟨known, hperm.mem_iff.mp hmem, hkey⟩ (hafter.trans hperm)
  | outOfMemory hnew hdenied hafter =>
    exact .outOfMemory (hforall hnew) hdenied (hafter.trans hperm)
  | appended hnew hroom hafter =>
    exact .appended (hforall hnew) (by rw [← hperm.length_eq]; exact hroom)
      (hafter.trans (hperm.cons entry))
  | evicted hnew hfull hfirst hleast hafter =>
    exact .evicted (hforall hnew) (by rw [← hperm.length_eq]; exact hfull)
      (hperm.symm.trans hfirst) (hforall hleast) hafter

/-- **A check marks the key among the entries that have not expired.** -/
theorem Sound.checkAndMark (h : filter.Sound) (digest : Bytes → κ) (replayKey : Bytes)
    (nowMs expiresAtMs : Nat) (room : Room) :
    let out := filter.checkAndMark digest replayKey nowMs expiresAtMs room
    out.2.Sound ∧ out.2.maxEntries = filter.maxEntries ∧
      if replayKey.length = 0 ∨ expiresAtMs ≤ nowMs then out = (.error .invalidReplayKey, filter)
      else Marks (live nowMs filter.entries) filter.maxEntries
        { key := digest replayKey, expiresAtMs := expiresAtMs } room out.1 out.2.entries := by
  dsimp only
  unfold Filter.checkAndMark
  by_cases hbad : replayKey.length = 0 ∨ expiresAtMs ≤ nowMs
  · rw [if_pos hbad, if_pos hbad]
    exact ⟨h, rfl, rfl⟩
  rw [if_neg hbad, if_neg hbad]
  obtain ⟨count, pruned, hprune, hsound, hperm, hmax⟩ := @Sound.pruneExpired _ _ nowMs _ h
  rw [hprune]
  obtain ⟨hmarked, hmax', hmarks⟩ :=
    hsound.mark { key := digest replayKey, expiresAtMs := expiresAtMs } room
  rw [hmax] at hmax' hmarks
  exact ⟨hmarked, hmax', hmarks.perm hperm⟩

/-! ### Snapshots -/

/-- What a restored filter keeps of the entries of a snapshot: those that expire last. -/
structure Keeps (entries : List (Entry κ)) (maxEntries : Nat) (kept : List (Entry κ)) : Prop where
  split : ∃ dropped, entries.Perm (kept ++ dropped) ∧
    (dropped ≠ [] → kept.length = maxEntries) ∧
    ∀ early ∈ dropped, ∀ late ∈ kept, early.expiresAtMs ≤ late.expiresAtMs

lemma Sound.restoreEntry {filter : Filter κ} {seen : List (Entry κ)} {nowMs : Nat}
    {entry : Entry κ} {room : Room} (h : filter.Sound)
    (hkeeps : Keeps (live nowMs seen) filter.maxEntries filter.entries)
    (hnew : ∀ known ∈ seen, known.key ≠ entry.key) :
    match filter.restoreEntry nowMs entry room with
    | .error e => e = .outOfMemory ∧ (room.index = false ∨ room.entries = false)
    | .ok next => next.Sound ∧ next.maxEntries = filter.maxEntries ∧
      Keeps (live nowMs (seen ++ [entry])) filter.maxEntries next.entries := by
  obtain ⟨dropped, hsplit, hfull, hlater⟩ := hkeeps.split
  have hlive : nowMs < entry.expiresAtMs →
      live nowMs (seen ++ [entry]) = live nowMs seen ++ [entry] := by simp [live]
  have hnone : filter.entryIndex.get entry.key = none := by
    refine h.index.get_eq_none.mpr fun known hmem hkey => ?_
    have hin : known ∈ live nowMs seen := hsplit.mem_iff.mpr (mem_append_left _ hmem)
    exact hnew known (mem_live.mp hin).1 (mem_singleton.mp hkey).symm
  unfold Filter.restoreEntry
  by_cases hexp : entry.expiresAtMs ≤ nowMs
  · rw [if_pos hexp]
    refine ⟨h, rfl, ?_⟩
    unfold live
    rw [filter_append, filter_cons_of_neg (by
      rw [decide_eq_true_eq]
      exact Nat.not_lt.mpr hexp), filter_nil, append_nil]
    exact hkeeps
  rw [if_neg hexp, hnone, hlive (Nat.lt_of_not_le hexp)]
  by_cases hroom : filter.entries.length < filter.maxEntries
  · rw [if_pos hroom]
    have hnothing : dropped = [] := by
      by_contra hdrop
      have hlen := hfull hdrop
      omega
    rw [hnothing, append_nil] at hsplit
    by_cases hidx : room.index = true
    case neg =>
      rw [Bool.not_eq_true] at hidx
      rw [hidx]
      exact ⟨rfl, .inl rfl⟩
    by_cases hentries : room.entries = true
    case neg =>
      rw [Bool.not_eq_true] at hentries
      rw [hidx, hentries]
      exact ⟨rfl, .inr rfl⟩
    rw [hidx, hentries]
    obtain ⟨next, happend, hsound, hafter, hmax⟩ := h.append hnone hroom
    rw [happend]
    refine ⟨hsound, hmax, ⟨[], ?_, fun hne => absurd rfl hne, nofun⟩⟩
    rw [hafter, append_nil]
    exact hsplit.append_right _
  rw [if_neg hroom]
  have hlen : filter.entries.length = filter.maxEntries :=
    Nat.le_antisymm h.bounded (Nat.le_of_not_lt hroom)
  obtain ⟨earliest, first, hmin, hfirst, hall⟩ := h.first hlen
  rw [earliestExpiryIndex_eq hmin]
  dsimp only [bind, Except.bind]
  rw [expiryAt_eq hfirst]
  dsimp only
  by_cases hearly : entry.expiresAtMs ≤ first.expiresAtMs
  · -- The new entry expires before all that are kept.
    rw [if_pos hearly]
    refine ⟨h, rfl, ⟨dropped ++ [entry], ?_, fun _ => hlen, ?_⟩⟩
    · rw [← append_assoc]
      exact hsplit.append_right _
    intro early hin late hkept
    rcases mem_append.mp hin with hold | hnewest
    · exact hlater early hold late hkept
    · rw [mem_singleton.mp hnewest]
      exact Nat.le_trans hearly (hall late hkept)
  -- It takes the place of the first to expire.
  rw [if_neg hearly]
  obtain ⟨evicted, hremove, hsound, hafter, hmax⟩ := h.removeEntryAt hfirst
  rw [hremove]
  dsimp only
  have hcap := h.capacity
  have hlength : evicted.entries.length = filter.entries.length - 1 := by
    rw [hafter, length_swapRemove (lt_of_getElem? hfirst)]
  have hperm := swapRemove_perm hfirst
  rw [← hafter] at hperm
  have hgone : evicted.entryIndex.get entry.key = none := by
    refine hsound.index.get_eq_none.mpr fun known hmem hkey => ?_
    exact h.index.get_eq_none.mp hnone known
      (hperm.mem_iff.mpr (mem_cons_of_mem _ hmem)) hkey
  obtain ⟨next, happend, hnext, hentries, hmax'⟩ := hsound.append hgone (by omega)
  rw [happend]
  refine ⟨hnext, hmax'.trans hmax, ⟨first :: dropped, ?_, fun _ => ?_, ?_⟩⟩
  · have hmoved : (entry :: first :: (evicted.entries ++ dropped)).Perm
        (evicted.entries ++ [entry] ++ first :: dropped) := by
      rw [append_assoc]
      exact (perm_middle.trans (perm_middle.cons entry)).symm
    rw [hentries]
    exact ((perm_append_singleton entry _).trans
      ((hsplit.trans (hperm.append_right dropped)).cons entry)).trans hmoved
  · rw [hentries, length_append, length_singleton]
    omega
  intro early hin late hkept
  rw [hentries] at hkept
  have hbound : first.expiresAtMs ≤ late.expiresAtMs := by
    rcases mem_append.mp hkept with hold | hnewest
    · exact hall late (hperm.mem_iff.mpr (mem_cons_of_mem _ hold))
    · rw [mem_singleton.mp hnewest]
      omega
  rcases mem_cons.mp hin with rfl | hold
  · exact hbound
  · exact Nat.le_trans (hlater early hold first (mem_of_getElem? hfirst)) hbound

lemma Sound.restoreSnapshot {nowMs : Nat} {rooms : Nat → Room} (rest : List (Entry κ))
    {filter : Filter κ} {seen : List (Entry κ)} (h : filter.Sound)
    (hkeeps : Keeps (live nowMs seen) filter.maxEntries filter.entries)
    (hnodup : ((seen ++ rest).map key).Nodup) :
    match restoreSnapshot nowMs rooms rest filter with
    | .error e => e = .outOfMemory ∧ ∃ n, (rooms n).index = false ∨ (rooms n).entries = false
    | .ok next => next.Sound ∧ next.maxEntries = filter.maxEntries ∧
      Keeps (live nowMs (seen ++ rest)) filter.maxEntries next.entries := by
  induction rest generalizing filter seen with
  | nil =>
    rw [append_nil]
    exact ⟨h, rfl, hkeeps⟩
  | cons entry rest ih =>
    have hnew : ∀ known ∈ seen, known.key ≠ entry.key := by
      intro known hmem hkey
      rw [map_append, nodup_append] at hnodup
      exact hnodup.2.2 known.key (mem_map_of_mem hmem) entry.key mem_cons_self hkey
    have hone := @Sound.restoreEntry _ _ filter seen nowMs entry (rooms rest.length) h hkeeps hnew
    unfold Filter.restoreSnapshot
    cases hrestore : filter.restoreEntry nowMs entry (rooms rest.length) with
    | error e =>
      rw [hrestore] at hone
      exact ⟨hone.1, rest.length, hone.2⟩
    | ok next =>
      rw [hrestore] at hone
      obtain ⟨hsound, hmax, hnext⟩ := hone
      rw [← hmax] at hnext ⊢
      have hall := @ih next (seen ++ [entry]) hsound hnext
        (by rw [append_assoc]; exact hnodup)
      rw [append_assoc] at hall
      exact hall

/-- **A restored snapshot keeps the unexpired entries that expire last.** -/
theorem Sound.initWithSnapshot (h : filter.Sound) (maxEntries nowMs : Nat) (rooms : Nat → Room) :
    match initWithSnapshot maxEntries filter.entries nowMs rooms with
    | .error e => e = .invalidCapacity ∧ maxEntries = 0 ∨
      e = .outOfMemory ∧ ∃ n, (rooms n).index = false ∨ (rooms n).entries = false
    | .ok next => next.Sound ∧ next.maxEntries = maxEntries ∧
      Keeps (live nowMs filter.entries) maxEntries next.entries := by
  unfold Filter.initWithSnapshot
  cases hinit : (Filter.init maxEntries : Except Error (Filter κ)) with
  | error e =>
    unfold Filter.init at hinit
    by_cases hzero : maxEntries = 0
    · rw [if_pos hzero] at hinit
      cases hinit
      exact .inl ⟨rfl, hzero⟩
    · simp [hzero] at hinit
  | ok empty =>
    obtain ⟨hsound, rfl⟩ := Sound.init hinit
    have hall := @Sound.restoreSnapshot _ _ nowMs rooms filter.entries _ [] hsound
      ⟨[], Perm.refl _, fun hne => absurd rfl hne, nofun⟩ h.keys_nodup
    dsimp only [bind, Except.bind]
    cases hrestore : Filter.restoreSnapshot nowMs rooms filter.entries
        ({ maxEntries := maxEntries } : Filter κ) with
    | error e =>
      rw [hrestore] at hall
      exact .inr hall
    | ok next =>
      rw [hrestore] at hall
      exact hall

end Filter

end Netz.Quic.ReplayFilter
