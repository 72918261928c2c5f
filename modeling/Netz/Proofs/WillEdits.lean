/-
What the building blocks of the Will scheduler do to its slots.

`Updates` is a slot rewritten in place, which keeps the invariant whatever the new deadline and
state are, as long as the heap follows the state.  The other two ways a slot changes, being
cleared and being filled, come with what a later installation needs of them.
-/
import Netz.Proofs.Will

namespace Netz.Mqtt.Will.Scheduler

open Lib Netz.Mqtt.IndexedMinHeap List Option

variable {s s' : Scheduler} {i : Nat} {entry entry' : Entry}

/-! ### Rewriting a slot -/

/-- One slot is rewritten, and the heap follows the new state. -/
structure Updates (s : Scheduler) (i : Nat) (entry entry' : Entry) (s' : Scheduler) : Prop where
  old : entryAt (slots s.entries) i = some entry
  slots_eq : slots s'.entries = (slots s.entries).set i (some entry')
  heaped : Heaped callbacks s'.deadlineHeap
  others : ∀ j, j ≠ i → (j ∈ s'.heap ↔ j ∈ s.heap)
  self : i ∈ s'.heap ↔ entry'.state = .scheduled
  books : s'.books = s.books

lemma Updates.entryAt_eq (u : Updates s i entry entry' s') (j : Nat) :
    entryAt (slots s'.entries) j = if j = i then some entry' else entryAt (slots s.entries) j := by
  rw [u.slots_eq, entryAt_set (lt_of_entryAt u.old)]

lemma Updates.length_eq (u : Updates s i entry entry' s') :
    s'.entries.length = s.entries.length := by
  rw [← length_slots, u.slots_eq, length_set, length_slots]

lemma Updates.elements_perm (u : Updates s i entry entry' s') :
    (entry :: (slots s'.entries).reduceOption).Perm (entry' :: (slots s.entries).reduceOption) := by
  rw [u.slots_eq]
  exact filterMap_set_perm (entryAt_eq_some.mp u.old) (some entry') id

/-- Clients and sizes stay, so everything but the heap stays as it was. -/
theorem Updates.inv (u : Updates s i entry entry' s') (h : Inv s)
    (hclient : entry'.clientId = entry.clientId)
    (hbytes : entry'.allocationBytes = entry.allocationBytes) : Inv s' := by
  have hfree : s'.freeIndices = s.freeIndices := field_eq Scheduler.freeIndices (fun _ => rfl) u.books
  have hidx : s'.clientIndex = s.clientIndex := field_eq Scheduler.clientIndex (fun _ => rfl) u.books
  have hcount : s'.countValue = s.countValue := field_eq Scheduler.countValue (fun _ => rfl) u.books
  have htotal : s'.totalBytes = s.totalBytes := field_eq Scheduler.totalBytes (fun _ => rfl) u.books
  have hheapCap : s'.heapCapacity = s.heapCapacity := field_eq Scheduler.heapCapacity (fun _ => rfl) u.books
  have hfreeCap : s'.freeCapacity = s.freeCapacity := field_eq Scheduler.freeCapacity (fun _ => rfl) u.books
  have hperm := u.elements_perm
  refine ⟨u.heaped, ?_, hfree ▸ h.free_nodup, ?_, ?_, ?_, ?_, ?_, ?_⟩
  · intro j found hfound
    rw [u.entryAt_eq] at hfound
    by_cases hj : j = i
    · rw [if_pos hj] at hfound
      rw [hj, ← some.inj hfound]
      exact u.self
    rw [if_neg hj] at hfound
    rw [u.others j hj]
    exact h.resident j found hfound
  · intro j
    rw [hfree, h.free_iff, u.slots_eq, getElem?_set]
    by_cases hj : i = j
    · subst hj
      simp [entryAt_eq_some.mp u.old]
    · rw [if_neg hj]
  · intro clientId j hj
    rw [hidx] at hj
    obtain ⟨found, hfound, hid⟩ := h.indexed clientId j hj
    by_cases hji : j = i
    · refine ⟨entry', ?_, ?_⟩
      · rw [u.entryAt_eq, if_pos hji]
      · rw [hji, u.old] at hfound
        rw [hclient, some.inj hfound, hid]
    · refine ⟨found, ?_, hid⟩
      simp [u.entryAt_eq, hji, hfound]
  · rw [hcount, h.count_eq]
    have := hperm.length_eq
    simp only [length_cons] at this
    omega
  · rw [htotal, h.bytes_eq]
    have := (hperm.map (·.allocationBytes)).sum_nat
    simp only [map_cons, sum_cons] at this
    omega
  · rw [hcount, hheapCap]
    exact h.heapRoom
  · rw [u.length_eq, hfreeCap]
    exact h.freeRoom

/-- The Will is resolved when its entry stops being pending. -/
theorem Updates.steps (u : Updates s i entry entry' s') (h : Inv s)
    (hclient : entry'.clientId = entry.clientId)
    (hbytes : entry'.allocationBytes = entry.allocationBytes) {resolved : List Nat}
    (hresolved : entry.pending?.toList = entry'.pending?.toList ++ resolved) :
    Steps s s' [] resolved := by
  have hacc : s'.accepted = s.accepted := field_eq Scheduler.accepted (fun _ => rfl) u.books
  refine ⟨u.inv h hclient hbytes, hacc, ?_⟩
  have hset := pendingSerials_set (entryAt_eq_some.mp u.old) (some entry')
  rw [← u.slots_eq, pendingSerials_slots, pendingSerials_slots,
    bind_some, hresolved, append_assoc] at hset
  show Perm _ (_ ++ [])
  rw [append_nil]
  refine perm_append_comm.trans ?_
  exact (perm_append_left_iff _).mp hset

lemma place_spec (hheaped : Heaped callbacks s.deadlineHeap)
    (he : entryAt s.entries i = some entry) (hi : i ∉ s.heap)
    (hroom : s.heap.length < s.heapCapacity) (hidx : entry'.heapIndex = none) :
    Sure (fun s' => Heaped callbacks s'.deadlineHeap ∧
      slots s'.entries = (slots s.entries).set i (some entry') ∧
      (∀ j, j ∈ s'.heap ↔ j = i ∨ j ∈ s.heap) ∧ s'.books = s.books)
      ((s.putEntry i entry').enterHeap i) := by
  have hput := putEntry_heaped hheaped he hi hidx
  have hat : entryAt (s.putEntry i entry').entries i = some entry' := by
    show entryAt (s.entries.set i _) i = _
    rw [entryAt_set (lt_of_entryAt he), if_pos rfl]
  refine (enterHeap_spec hput hat hi hroom).mono ?_
  rintro s' ⟨hheaped', hslots, hmem, hbooks⟩
  refine ⟨hheaped', ?_, hmem, hbooks⟩
  rw [hslots]
  show slots (s.entries.set i (some entry')) = _
  rw [slots_set]
  cases entry'
  cases hidx
  rfl

/-- **A Will becomes due at once, wherever it was.** -/
theorem makeDueNow_spec (h : Inv s) (he : entryAt (slots s.entries) i = some entry) (nowNs : Int) :
    Sure (Updates s i entry { entry with state := .scheduled, deadlineNs := nowNs })
      (s.makeDueNow i nowNs) := by
  obtain ⟨placed, hplaced, -⟩ := entryAt_of_slots he
  obtain ⟨hleft, hslots, hmem, hbooks⟩ := leaveHeap_spec h.heaped hplaced
  have hout : i ∉ (s.leaveHeap placed).heap := fun hc => ((hmem i).mp hc).2 rfl
  have hcount : (s.leaveHeap placed).countValue = s.countValue :=
    field_eq Scheduler.countValue (fun _ => rfl) hbooks
  have hcap : (s.leaveHeap placed).heapCapacity = s.heapCapacity :=
    field_eq Scheduler.heapCapacity (fun _ => rfl) hbooks
  have hroom := heap_lt hleft (by rw [hcount, hslots]; exact h.count_eq)
    (by rw [hcount, hcap]; exact h.heapRoom) (by rw [hslots]; exact he) hout
  have hat := entryAt_outside hleft (by rw [hslots]; exact he) hout
  have hidx := heapIndex_none hleft hat hout
  unfold makeDueNow
  rw [unwrapEntry_eq hplaced]
  show Sure _ ((s.leaveHeap placed).unwrapEntry i >>= _)
  rw [unwrapEntry_eq hat]
  refine Delivers.mono (place_spec hleft hat hout hroom hidx) ?_
  rintro s' ⟨hheaped, hset, hin, hrest⟩
  refine ⟨he, by rw [hset, hslots], hheaped, ?_, ?_, hrest.trans hbooks⟩
  · intro j hj
    rw [hin, hmem]
    exact ⟨fun hc => hc.elim (fun hji => absurd hji hj) (·.1), fun hc => .inr ⟨hc, hj⟩⟩
  · exact ⟨fun _ => rfl, fun _ => (hin i).mpr (.inl rfl)⟩

lemma schedule_spec (h : Inv s) (he : entryAt s.entries i = some entry) (hi : i ∉ s.heap)
    (deadlineNs : Int) :
    Sure (Updates s i entry { entry with state := .scheduled, deadlineNs := deadlineNs })
      (s.schedule i entry deadlineNs) := by
  have hidx := heapIndex_none h.heaped he hi
  have hslot : entryAt (slots s.entries) i = some entry := by
    rw [slots_of_entryAt he]
    cases entry
    cases hidx
    rfl
  have hroom := heap_lt h.heaped h.count_eq h.heapRoom hslot hi
  unfold schedule
  rw [hidx]
  refine Delivers.mono (place_spec h.heaped he hi hroom rfl) ?_
  rintro s' ⟨hheaped, hset, hin, hrest⟩
  refine ⟨hslot, hset, hheaped, ?_, ?_, hrest⟩
  · intro j hj
    rw [hin]
    exact ⟨fun hc => hc.elim (fun hji => absurd hji hj) id, .inr⟩
  · exact ⟨fun _ => rfl, fun _ => (hin i).mpr (.inl rfl)⟩

lemma claimRoot_spec {allowed : Error → Prop} (h : Inv s) (hroot : s.heap.head? = some i)
    (he : entryAt (slots s.entries) i = some entry) :
    Delivers allowed (Updates s i entry { entry with state := .due }) (s.claimRoot i) := by
  have hget : s.heap[0]? = some i := by
    rw [← List.head?_eq_getElem?]
    exact hroot
  have hremoves := remove_removes callbacks_lawful h.heaped (lt_of_getElem? hget)
  have hent : (s.deadlineHeap.remove lessEntry setHeapPosition 0).1 = i :=
    some.inj (hremoves.entry.symm.trans hget)
  obtain ⟨popped, hpopped⟩ : ∃ popped, popped =
      s.withHeap (s.deadlineHeap.remove lessEntry setHeapPosition 0).2 := ⟨_, rfl⟩
  have hheaped : Heaped callbacks popped.deadlineHeap := by
    rw [hpopped]
    exact hremoves.heaped
  have hslots : slots popped.entries = slots s.entries := by
    rw [hpopped]
    exact hremoves.base_eq
  have hmem : ∀ j, j ∈ popped.heap ↔ j ∈ s.heap ∧ j ≠ i := by
    intro j
    rw [hpopped, ← hent]
    exact hremoves.mem_iff j
  have hbooks : popped.books = s.books := by
    rw [hpopped]
    rfl
  have hout : i ∉ popped.heap := fun hc => ((hmem i).mp hc).2 rfl
  have hat := entryAt_outside hheaped (by rw [hslots]; exact he) hout
  have hidx := heapIndex_none hheaped hat hout
  unfold claimRoot
  dsimp only
  rw [← hpopped, unwrapEntry_eq hat]
  refine ⟨he, ?_, putEntry_heaped hheaped hat hout hidx, ?_, ?_, hbooks⟩
  · show slots (popped.entries.set i (some _)) = _
    rw [slots_set, hslots]
    cases entry
    cases hidx
    rfl
  · intro j hj
    show j ∈ popped.heap ↔ _
    rw [hmem]
    exact ⟨(·.1), fun hc => ⟨hc, hj⟩⟩
  · exact ⟨fun hc => absurd hc hout, fun hc => (by cases hc)⟩

/-! ### Clearing a slot -/

lemma unindex_eq (s : Scheduler) (i : Nat) (clientId : Bytes) :
    ∃ index room, s.unindex i clientId = { s with clientIndex := index, clientIndexRoom := room } ∧
      s.clientIndexRoom ≤ room ∧
      ∀ c, index.get c =
        if c = clientId ∧ s.clientIndex.get clientId = some i then none
          else s.clientIndex.get c := by
  unfold unindex
  by_cases h : s.clientIndex.get clientId = some i
  · simp [h, Table.get_remove]
  rw [if_neg h]
  refine ⟨_, _, rfl, le_rfl, ?_⟩
  intro c
  rw [if_neg (fun hcc => h hcc.2)]

/-- A slot is cleared and returned, and nothing that was reserved is lost. -/
structure Clears (s : Scheduler) (i : Nat) (entry : Entry) (s' : Scheduler) : Prop where
  steps : Steps s s' [] entry.pending?.toList
  absent : s.clientIndex.get entry.clientId = some i → s'.clientIndex.get entry.clientId = none
  free : s'.freeIndices ≠ []
  count_eq : s'.countValue + 1 = s.countValue
  room_le : s.clientIndexRoom ≤ s'.clientIndexRoom
  heapCapacity_eq : s'.heapCapacity = s.heapCapacity

/-- **An entry is removed from the heap, the client index and its slot.** -/
theorem removeAt_spec (h : Inv s) (he : entryAt (slots s.entries) i = some entry) :
    Sure (Clears s i entry) (s.removeAt i) := by
  obtain ⟨placed, hplaced, hunplaced⟩ := entryAt_of_slots he
  have hclient : placed.clientId = entry.clientId := by
    rw [← hunplaced]
    rfl
  have hbytes : placed.allocationBytes = entry.allocationBytes := by
    rw [← hunplaced]
    rfl
  obtain ⟨hleft, hslots, hmem, hbooks⟩ := leaveHeap_spec h.heaped hplaced
  obtain ⟨entries, heap, hleave⟩ := exists_of_books hbooks
  rw [hleave] at hleft hslots hmem
  obtain ⟨index, room, hunindex, hroom, hget⟩ :=
    unindex_eq { s with entries := entries, heap := heap } i entry.clientId
  obtain ⟨hcount, htotal⟩ := h.counters_without he
  have hfree := h.free_lt he
  have hin : i < entries.length := by
    rw [← length_slots, hslots]
    exact lt_of_entryAt he
  have hat : ∀ j, entryAt (slots (entries.set i none)) j =
      if j = i then none else entryAt (slots s.entries) j := by
    intro j
    rw [slots_set, hslots]
    exact entryAt_set (lt_of_entryAt he) none j
  unfold removeAt
  rw [unwrapEntry_eq hplaced]
  show Sure _ (((s.leaveHeap placed).unindex i placed.clientId).freeSlot i placed.allocationBytes)
  rw [hleave, hclient, hbytes, hunindex]
  unfold freeSlot
  dsimp only
  rw [if_neg (by omega)]
  refine ⟨⟨⟨?_, ?_, ?_, ?_, ?_, ?_, ?_, ?_, ?_⟩, rfl, ?_⟩, ?_, ?_, ?_, hroom, rfl⟩
  · refine heaped_of_outside hleft (fun hc => ((hmem i).mp hc).2 rfl) ?_ ?_
    · intro j hj
      rw [entryAt_set hin, if_neg hj]
    · simp [entryAt_set hin]
  · intro j found hfound
    rw [hat] at hfound
    obtain ⟨hj, hfound⟩ := of_guard hfound nofun
    rw [hmem, ← h.resident j found hfound]
    exact ⟨(·.1), fun hc => ⟨hc, hj⟩⟩
  · refine Nodup.append h.free_nodup (nodup_singleton i) ?_
    intro j hj hji
    rw [mem_singleton.mp hji] at hj
    exact h.free_not_live he hj
  · intro j
    rw [mem_append, mem_singleton, h.free_iff, slots_set, hslots, getElem?_set]
    by_cases hj : i = j
    · rw [if_pos hj, if_pos (lt_of_entryAt he)]
      exact ⟨fun _ => rfl, fun _ => .inr hj.symm⟩
    · rw [if_neg hj]
      exact ⟨fun hc => hc.elim id (fun hji => absurd hji.symm hj), .inl⟩
  · intro clientId j hj
    rw [hget] at hj
    by_cases hgone : clientId = entry.clientId ∧ s.clientIndex.get entry.clientId = some i
    · simp [hgone] at hj
    rw [if_neg hgone] at hj
    obtain ⟨found, hfound, hid⟩ := h.indexed clientId j hj
    have hji : j ≠ i := by
      rintro rfl
      rw [he] at hfound
      have hsame : clientId = entry.clientId := by
        rw [← hid, some.inj hfound]
      exact hgone ⟨hsame, hsame ▸ hj⟩
    refine ⟨found, ?_, hid⟩
    rw [hat, if_neg hji]
    exact hfound
  · show s.countValue - 1 = (slots (entries.set i none)).reduceOption.length
    rw [slots_set, hslots, hcount]
    rfl
  · show s.totalBytes - entry.allocationBytes = _
    rw [slots_set, hslots, htotal, Nat.add_sub_cancel]
    rfl
  · show s.countValue - 1 ≤ s.heapCapacity
    have := h.heapRoom
    omega
  · show (entries.set i none).length ≤ s.freeCapacity
    rw [length_set, ← length_slots, hslots, length_slots]
    exact h.freeRoom
  · have hset := pendingSerials_set (entryAt_eq_some.mp he) none
    rw [← hslots] at hset
    show Perm (pendingSerials (entries.set i none) ++ _) (_ ++ [])
    rw [append_nil, ← pendingSerials_slots, slots_set, ← pendingSerials_slots s.entries,
      ← hslots]
    exact perm_append_comm.trans hset
  · intro hmapped
    rw [hget, if_pos ⟨rfl, hmapped⟩]
  · show s.freeIndices ++ [i] ≠ []
    simp
  · show s.countValue - 1 + 1 = s.countValue
    omega

/-! ### Filling a slot -/

/-- A vacant slot, and the free list without it. -/
structure Vacancy (s : Scheduler) (i : Nat) (entries : Entries) (free : List Nat) : Prop where
  vacant : entries[i]? = some none
  entryAt_eq : ∀ j, entryAt entries j = entryAt s.entries j
  elements : (slots entries).reduceOption = (slots s.entries).reduceOption
  heaped : Heaped callbacks ⟨entries, s.heap⟩
  free_nodup : free.Nodup
  free_iff : ∀ j, j ∈ free ↔ entries[j]? = some none ∧ j ≠ i
  freeRoom : entries.length ≤ s.freeCapacity

lemma takeSlot_spec (h : Inv s) (hslot : s.freeIndices = [] →
      s.entries.length < s.entriesCapacity ∧ s.entries.length < s.freeCapacity) :
    ∃ i entries free, s.takeSlot = .ok (i, { s with entries := entries, freeIndices := free }) ∧
      Vacancy s i entries free := by
  have hiff : ∀ j, j ∈ s.freeIndices ↔ s.entries[j]? = some none := by
    intro j
    rw [h.free_iff, getElem?_slots_eq_none]
  unfold takeSlot
  by_cases hfree : s.freeIndices = []
  · obtain ⟨hentries, hroom⟩ := hslot hfree
    rw [hfree]
    refine ⟨s.entries.length, s.entries ++ [none], [], ?_, ?_⟩
    · show (if s.entriesCapacity ≤ s.entries.length then _ else _) = _
      rw [if_neg (by omega)]
    have hsame : ∀ j, entryAt (s.entries ++ [none]) j = entryAt s.entries j :=
      entryAt_append_none s.entries
    refine ⟨by simp, hsame, ?_, heaped_of_append h.heaped, nodup_nil, ?_, ?_⟩
    · simp [reduceOption_append, slots]
    · intro j
      refine ⟨fun hc => (by cases hc), fun hc => ?_⟩
      obtain ⟨hj, hne⟩ := hc
      have hlt : j < s.entries.length := by
        have := lt_of_getElem? hj
        rw [length_append, length_singleton] at this
        omega
      simp [getElem?_append_left hlt, ← hiff, hfree] at hj
    · rw [length_append, length_singleton]
      omega
  have hlast := getLast?_eq_some_getLast hfree
  have hsplit := dropLast_append_getLast hfree
  obtain ⟨i, hi⟩ : ∃ i, i = s.freeIndices.getLast hfree := ⟨_, rfl⟩
  rw [← hi] at hlast hsplit
  have hnodup := h.free_nodup
  rw [← hsplit] at hnodup
  obtain ⟨hdrop, -, hdisj⟩ := nodup_append.mp hnodup
  rw [hlast]
  refine ⟨i, s.entries, s.freeIndices.dropLast, rfl, ?_⟩
  refine ⟨?_, fun _ => rfl, rfl, h.heaped, hdrop, ?_, h.freeRoom⟩
  · rw [← hiff, ← hsplit]
    simp
  intro j
  rw [← hiff]
  constructor
  · intro hj
    exact ⟨mem_of_mem_dropLast hj, hdisj j hj i (mem_singleton_self i)⟩
  rintro ⟨hj, hne⟩
  rw [← hsplit, mem_append, mem_singleton] at hj
  exact hj.resolve_right hne

/-- What an installation finds reserved. -/
structure Ready (s : Scheduler) (clientId : Bytes) : Prop where
  absent : s.clientIndex.get clientId = none
  room : 0 < s.clientIndexRoom
  heapRoom : s.countValue + 1 ≤ s.heapCapacity
  slot : s.freeIndices = [] →
    s.entries.length < s.entriesCapacity ∧ s.entries.length < s.freeCapacity

/-- **A prepared Will is installed.** -/
theorem installPrepared_spec (h : Inv s) {prepared : Entry} (hready : Ready s prepared.clientId)
    (hstate : prepared.state = .connected) (hidx : prepared.heapIndex = none) :
    Sure (fun r => Steps s r.2 [r.1] []) (s.installPrepared prepared) := by
  obtain ⟨i, entries, free, htake, hv⟩ := takeSlot_spec h hready.slot
  obtain ⟨entry, hent⟩ : ∃ entry, entry =
      { prepared with serial := s.accepted, generation := s.nextGeneration } := ⟨_, rfl⟩
  have hclient : entry.clientId = prepared.clientId := by rw [hent]
  have hunplaced : entry.unplaced = entry := by
    rw [hent]
    cases prepared
    cases hidx
    rfl
  have hconn : entry.state = .connected := by
    rw [hent]
    exact hstate
  have hin : i < entries.length := lt_of_getElem? hv.vacant
  have hnone : entryAt s.entries i = none := by
    rw [← hv.entryAt_eq]
    simp [hv.vacant, entryAt]
  have hout : i ∉ s.heap := by
    intro hc
    obtain ⟨found, hfound⟩ := live_slots.mp (h.heaped.live i hc)
    change entryAt s.entries i = some found at hfound
    simp [hnone] at hfound
  have hat : ∀ j, entryAt (slots (entries.set i (some entry))) j =
      if j = i then some entry else entryAt (slots s.entries) j := by
    intro j
    rw [entryAt_slots, entryAt_set hin]
    by_cases hj : j = i
    · rw [if_pos hj, if_pos hj, map_some, hunplaced]
    · rw [if_neg hj, if_neg hj, hv.entryAt_eq, entryAt_slots]
  have hget : ∀ c, (s.clientIndex.put entry.clientId i).get c =
      if c = entry.clientId then some i else s.clientIndex.get c := by
    intro c
    refine Table.get_put ?_ i c
    rw [hclient]
    exact hready.absent
  have hperm : (slots (entries.set i (some entry))).reduceOption.Perm
      (entry :: (slots s.entries).reduceOption) := by
    have hvacant : (slots entries)[i]? = some none := getElem?_slots_eq_none.mpr hv.vacant
    have hset := filterMap_set_perm hvacant (some entry) id
    rw [slots_set, map_some, hunplaced, ← hv.elements]
    exact hset
  unfold installPrepared
  rw [htake, ← hent]
  show Sure _ (Except.bind (fillSlot _ i entry) _)
  unfold fillSlot
  rw [if_neg (by
    rw [hclient, hready.absent, hv.vacant]
    have := hready.room
    simp
    omega)]
  refine ⟨⟨?_, ?_, hv.free_nodup, ?_, ?_, ?_, ?_, hready.heapRoom, ?_⟩, rfl, ?_⟩
  · refine heaped_of_outside hv.heaped hout ?_ ?_
    · intro j hj
      rw [entryAt_set hin, if_neg hj]
    intro found hfound
    rw [entryAt_set hin, if_pos rfl] at hfound
    rw [← some.inj hfound, ← hunplaced]
    rfl
  · intro j found hfound
    rw [hat] at hfound
    by_cases hj : j = i
    · rw [if_pos hj] at hfound
      rw [← some.inj hfound, hconn, hj]
      exact ⟨fun hc => absurd hc hout, fun hc => (by cases hc)⟩
    · rw [if_neg hj] at hfound
      exact h.resident j found hfound
  · intro j
    rw [hv.free_iff, getElem?_slots_eq_none, getElem?_set]
    by_cases hj : i = j
    · simp [hj]
    · rw [if_neg hj]
      exact ⟨(·.1), fun hc => ⟨hc, Ne.symm hj⟩⟩
  · intro clientId j hj
    rw [hget] at hj
    by_cases hc : clientId = entry.clientId
    · rw [if_pos hc] at hj
      refine ⟨entry, ?_, hc.symm⟩
      rw [hat, if_pos (some.inj hj).symm]
    rw [if_neg hc] at hj
    obtain ⟨found, hfound, hid⟩ := h.indexed clientId j hj
    refine ⟨found, ?_, hid⟩
    rw [hat, if_neg]
    · exact hfound
    · rintro rfl
      simp [entryAt_slots, hnone] at hfound
  · simp [hperm.length_eq, h.count_eq]
  · simp [(hperm.map _).sum_nat, h.bytes_eq, Nat.add_comm]
  · show (entries.set i (some entry)).length ≤ s.freeCapacity
    rw [length_set]
    exact hv.freeRoom
  have hset := pendingSerials_set hv.vacant (some entry)
  have hpend : entry.pending? = some s.accepted := by
    unfold Entry.pending?
    rw [hconn, if_neg (by simp), hent]
  have hold : pendingSerials entries = pendingSerials s.entries := by
    rw [← pendingSerials_slots, ← pendingSerials_slots s.entries, pendingSerials_elements,
      hv.elements, ← pendingSerials_elements]
  rw [bind_some, hpend, hold] at hset
  rw [append_nil]
  exact hset.trans perm_append_comm

end Netz.Mqtt.Will.Scheduler
