/-
The slots of the Will scheduler and its deadline heap.

`slots` is what the entries hold apart from their heap positions: no operation of the heap
changes it, and everything but the heap is said about it.  The callbacks of the heap are
lawful, so that the heap's theorems apply, and entries outside the heap may change freely.
-/
import Mathlib.Data.Prod.Lex
import Netz.Mqtt.Will
import Netz.Proofs.IndexedHeap
import Netz.Lib.Ledger

namespace Netz.Mqtt.Will

open Lib Netz.Mqtt.IndexedMinHeap List Option

/-! ### Entries and slots -/

/-- What the heap orders by. -/
def Entry.rank (entry : Entry) : Int ×ₗ Nat := toLex (entry.deadlineNs, entry.generation)

lemma Entry.earlier_iff (a b : Entry) : a.earlier b = true ↔ a.rank < b.rank := by
  unfold earlier rank
  rw [Prod.Lex.toLex_lt_toLex]
  by_cases h : a.deadlineNs = b.deadlineNs
  · simp [h]
  · simp [h]

/-- The entry outside of any heap. -/
def Entry.unplaced (entry : Entry) : Entry := { entry with heapIndex := none }

/-- The entries without their positions. -/
def slots (entries : Entries) : Entries := entries.map (Option.map Entry.unplaced)

variable {entries : Entries} {i : Nat} {entry : Entry} {items : List Nat}

lemma entryAt_eq_some : entryAt entries i = some entry ↔ entries[i]? = some (some entry) := by
  unfold entryAt
  rw [join_eq_some_iff]

lemma entryAt_set (hi : i < entries.length) (slot : Option Entry) (j : Nat) :
    entryAt (entries.set i slot) j = if j = i then slot else entryAt entries j := by
  unfold entryAt
  rw [getElem?_set]
  by_cases hj : j = i
  · rw [if_pos hj.symm, if_pos hi, if_pos hj, join_some]
  · rw [if_neg (Ne.symm hj), if_neg hj]

lemma lt_of_entryAt (h : entryAt entries i = some entry) : i < entries.length :=
  lt_of_getElem? (entryAt_eq_some.mp h)

lemma entryAt_slots (entries : Entries) (i : Nat) :
    entryAt (slots entries) i = (entryAt entries i).map Entry.unplaced := by
  unfold entryAt slots
  rw [getElem?_map]
  cases entries[i]? with
  | none => rfl
  | some slot => cases slot <;> rfl

@[simp] lemma length_slots (entries : Entries) : (slots entries).length = entries.length :=
  length_map _

lemma slots_set (entries : Entries) (i : Nat) (slot : Option Entry) :
    slots (entries.set i slot) = (slots entries).set i (slot.map Entry.unplaced) := by
  unfold slots
  rw [map_set]

lemma getElem?_slots_eq_none : (slots entries)[i]? = some none ↔ entries[i]? = some none := by
  unfold slots
  rw [getElem?_map]
  cases entries[i]? with
  | none => simp
  | some slot => cases slot <;> simp

lemma set_same (h : entryAt entries i = some entry) : entries.set i (some entry) = entries := by
  refine ext_getElem? fun j => ?_
  rw [getElem?_set]
  by_cases hj : i = j
  · rw [if_pos hj, if_pos (lt_of_entryAt h), ← hj, (entryAt_eq_some).mp h]
  · rw [if_neg hj]

/-! ### The callbacks -/

/-- The scheduler's heap orders the entries by rank, and tells them their positions. -/
def callbacks : Callbacks Entries Entries (Int ×ₗ Nat) where
  lessEntry := lessEntry
  setPosition := setHeapPosition
  base := slots
  live shelf i := ∃ entry, entryAt shelf i = some entry
  key shelf i := (entryAt shelf i).elim (toLex (0, 0)) Entry.rank
  position entries i := (entryAt entries i).bind (·.heapIndex)

lemma live_slots :
    callbacks.live (slots entries) i ↔ ∃ entry, entryAt entries i = some entry := by
  show (∃ entry, entryAt (slots entries) i = some entry) ↔ _
  simp [entryAt_slots]

lemma key_slots (h : entryAt entries i = some entry) :
    callbacks.key (slots entries) i = entry.rank := by
  show (entryAt (slots entries) i).elim _ _ = _
  rw [entryAt_slots, h]
  rfl

lemma callbacks_lawful : callbacks.Lawful where
  less_iff := by
    intro entries a b ha hb
    obtain ⟨x, hx⟩ := (live_slots).mp ha
    obtain ⟨y, hy⟩ := (live_slots).mp hb
    show lessEntry entries a b = true ↔
      callbacks.key (slots entries) a < callbacks.key (slots entries) b
    rw [key_slots hx, key_slots hy]
    unfold lessEntry
    rw [hx, hy]
    exact x.earlier_iff y
  base_set := by
    intro entries i position
    show slots (setHeapPosition entries i position) = slots entries
    unfold setHeapPosition
    cases h : entryAt entries i with
    | none => rfl
    | some entry =>
      rw [slots_set]
      refine set_same ?_
      rw [entryAt_slots, h]
      rfl
  position_set := by
    intro entries i position j hlive
    obtain ⟨entry, h⟩ := (live_slots).mp hlive
    show (entryAt (setHeapPosition entries i position) j).bind _ = _
    unfold setHeapPosition
    rw [h, entryAt_set (lt_of_entryAt h)]
    by_cases hj : j = i
    · simp [hj]
    · rw [if_neg hj, if_neg hj]
      rfl

/-- **What is outside the heap may change.** -/
theorem heaped_of_outside {entries' : Entries} (h : Heaped callbacks ⟨entries, items⟩)
    (hi : i ∉ items) (hsame : ∀ j, j ≠ i → entryAt entries' j = entryAt entries j)
    (hunplaced : ∀ entry, entryAt entries' i = some entry → entry.heapIndex = none) :
    Heaped callbacks ⟨entries', items⟩ := by
  have hmem : ∀ e ∈ items, entryAt entries' e = entryAt entries e := by
    intro e he
    refine hsame e ?_
    rintro rfl
    exact hi he
  refine ⟨⟨?_, ?_⟩, ?_⟩
  · intro e he
    obtain ⟨entry, hent⟩ := (live_slots).mp (h.live e he)
    exact (live_slots).mpr ⟨entry, (hmem e he).trans hent⟩
  · intro e hlive j
    show (entryAt entries' e).bind _ = some j ↔ items[j]? = some e
    obtain ⟨entry, hent⟩ := (live_slots).mp hlive
    by_cases he : e = i
    · rw [he] at hent ⊢
      rw [hent, bind_some, hunplaced entry hent]
      refine ⟨fun hn => (by cases hn), fun hs => absurd (mem_of_getElem? hs) hi⟩
    rw [hsame e he]
    rw [hsame e he] at hent
    exact h.position_iff e (live_slots.mpr ⟨entry, hent⟩) j
  intro j hj hjn
  have hkey : ∀ k, k < items.length →
      keyAt callbacks ⟨entries', items⟩ k = keyAt callbacks ⟨entries, items⟩ k := by
    intro k hk
    have hitem : items[k]? = some (items.getD k 0) := by
      rw [getD_eq_getElem?_getD, getElem?_eq_getElem hk]
      rfl
    have he := hmem _ (mem_of_getElem? hitem)
    show (entryAt (slots entries') _).elim _ _ = (entryAt (slots entries) _).elim _ _
    rw [entryAt_slots, entryAt_slots, he]
  rw [hkey j hjn, hkey _ ((Heap.parent_lt hj).trans hjn)]
  exact h.ordered j hj hjn

lemma entryAt_append_none (entries : Entries) (j : Nat) :
    entryAt (entries ++ [none]) j = entryAt entries j := by
  unfold entryAt
  rw [getElem?_append]
  by_cases hj : j < entries.length
  · rw [if_pos hj]
  · rw [if_neg hj, getElem?_eq_none (not_lt.mp hj)]
    cases j - entries.length <;> rfl

lemma heaped_of_append (h : Heaped callbacks ⟨entries, items⟩) :
    Heaped callbacks ⟨entries ++ [none], items⟩ := by
  have hlen : entries.length ∉ items := by
    intro hmem
    obtain ⟨entry, hent⟩ := (live_slots).mp (h.live _ hmem)
    exact absurd (lt_of_entryAt hent) (Nat.lt_irrefl _)
  refine heaped_of_outside h hlen (fun j _ => entryAt_append_none entries j) ?_
  intro entry hent
  rw [entryAt_append_none] at hent
  exact absurd (lt_of_entryAt hent) (Nat.lt_irrefl _)

end Netz.Mqtt.Will

/-! ### The invariant of the Will scheduler, and what its building blocks keep

`Inv` ties the client index, the free list, the counters and the heap to the slots.  A call
either rewrites one slot in place (`Updates`), clears one or fills one; `Steps` says of each
that the invariant is kept, and which Wills stop being pending. -/

namespace Netz.Mqtt.Will

open Lib Netz.Mqtt.IndexedMinHeap List

/-- A call that does not panic, with what its result satisfies. -/
abbrev Sure {α : Type} (Q : α → Prop) (x : Except Error α) : Prop :=
  Delivers (fun e => e ≠ Error.panic) Q x

/-- The serial of a Will that is neither canceled nor handed out. -/
def Entry.pending? (entry : Entry) : Option Nat :=
  if entry.state = .due then none else some entry.serial

def pendingSerials (entries : Entries) : List Nat :=
  entries.filterMap fun slot => slot.bind Entry.pending?

lemma pendingSerials_slots (entries : Entries) :
    pendingSerials (slots entries) = pendingSerials entries := by
  unfold pendingSerials slots
  rw [filterMap_map]
  congr 1
  funext slot
  cases slot <;> rfl

lemma pendingSerials_elements (entries : Entries) :
    pendingSerials entries = entries.reduceOption.filterMap Entry.pending? := by
  unfold pendingSerials reduceOption
  rw [filterMap_filterMap]
  rfl

lemma pendingSerials_set {entries : Entries} {i : Nat} {slot : Option Entry}
    (h : entries[i]? = some slot) (slot' : Option Entry) :
    ((slot.bind Entry.pending?).toList ++ pendingSerials (entries.set i slot')).Perm
      ((slot'.bind Entry.pending?).toList ++ pendingSerials entries) :=
  filterMap_set_perm h slot' fun slot => slot.bind Entry.pending?

namespace Scheduler

/-- Everything but the entries and their heap. -/
def books (s : Scheduler) : Scheduler := { s with entries := [], heap := [] }

lemma field_eq {α : Type} (field : Scheduler → α) (hfield : ∀ s : Scheduler, field s.books = field s)
    {s s' : Scheduler} (h : s'.books = s.books) : field s' = field s := by
  rw [← hfield s', h, hfield]

lemma exists_of_books {s s' : Scheduler} (h : s'.books = s.books) :
    ∃ entries heap, s' = { s with entries := entries, heap := heap } := by
  refine ⟨s'.entries, s'.heap, ?_⟩
  cases s
  cases s'
  simpa [books] using h

structure Inv (s : Scheduler) : Prop where
  heaped : Heaped callbacks s.deadlineHeap
  resident : ∀ i entry, entryAt (slots s.entries) i = some entry →
    (i ∈ s.heap ↔ entry.state = .scheduled)
  free_nodup : s.freeIndices.Nodup
  free_iff : ∀ i, i ∈ s.freeIndices ↔ (slots s.entries)[i]? = some none
  indexed : ∀ clientId i, s.clientIndex.get clientId = some i →
    ∃ entry, entryAt (slots s.entries) i = some entry ∧ entry.clientId = clientId
  count_eq : s.countValue = (slots s.entries).reduceOption.length
  bytes_eq : s.totalBytes = ((slots s.entries).reduceOption.map (·.allocationBytes)).sum
  heapRoom : s.countValue ≤ s.heapCapacity
  freeRoom : s.entries.length ≤ s.freeCapacity

/-- A state reached with the invariant kept: what was pending, and was installed since, is
pending still or resolved. -/
structure Steps (s s' : Scheduler) (installed : List Handle) (resolved : List Nat) : Prop where
  inv : Inv s'
  accepted_eq : s'.accepted = s.accepted + installed.length
  accounts : (pendingSerials s'.entries ++ resolved).Perm
    (pendingSerials s.entries ++ range' s.accepted installed.length)

lemma Steps.refl {s : Scheduler} (h : Inv s) : Steps s s [] [] := ⟨h, rfl, Perm.refl _⟩

/-- A step that installs nothing, and one after it. -/
theorem Steps.trans {s s' s'' : Scheduler} {installed : List Handle} {resolved resolved' : List Nat}
    (h : Steps s s' [] resolved) (h' : Steps s' s'' installed resolved') :
    Steps s s'' installed (resolved ++ resolved') where
  inv := h'.inv
  accepted_eq := by
    rw [h'.accepted_eq, h.accepted_eq]
    rfl
  accounts := by
    have hfirst : (pendingSerials s'.entries ++ resolved).Perm (pendingSerials s.entries) := by
      simpa using h.accounts
    have hsecond := h'.accounts.append_right resolved
    rw [show s'.accepted = s.accepted from h.accepted_eq, append_assoc,
      append_assoc] at hsecond
    refine (perm_append_comm.append_left _).trans (hsecond.trans ?_)
    refine (perm_append_comm.append_left _).trans ?_
    rw [← append_assoc]
    exact hfirst.append_right _

/-! ### Slots and lists of indices -/

variable {s s' : Scheduler}

variable {i : Nat} {entry : Entry} {entries : Entries}

lemma Inv.free_not_live (h : Inv s) (he : entryAt (slots s.entries) i = some entry) :
    i ∉ s.freeIndices := by
  rw [h.free_iff, (entryAt_eq_some).mp he]
  simp

lemma Inv.free_lt (h : Inv s) (he : entryAt (slots s.entries) i = some entry) :
    s.freeIndices.length < s.freeCapacity := by
  have hnodup : (i :: s.freeIndices).Nodup := nodup_cons.mpr ⟨h.free_not_live he, h.free_nodup⟩
  have hsub : (i :: s.freeIndices) ⊆ range s.entries.length := by
    intro j hj
    rw [mem_range, ← length_slots]
    rcases mem_cons.mp hj with rfl | hj
    · exact lt_of_entryAt he
    · exact (List.getElem_of_getElem? ((h.free_iff j).mp hj)).1
  have hle := (hnodup.subperm hsub).length_le
  rw [length_cons, length_range] at hle
  have := h.freeRoom
  omega

lemma heap_lt (hheaped : Heaped callbacks s.deadlineHeap)
    (hcount : s.countValue = (slots s.entries).reduceOption.length)
    (hroom : s.countValue ≤ s.heapCapacity) (he : entryAt (slots s.entries) i = some entry)
    (hi : i ∉ s.heap) : s.heap.length < s.heapCapacity := by
  have hnodup : (i :: s.heap).Nodup := nodup_cons.mpr ⟨hi, hheaped.nodup⟩
  have hle := length_le_reduceOption (l := slots s.entries) hnodup (by
    intro j hj
    rcases mem_cons.mp hj with rfl | hj
    · exact ⟨entry, (entryAt_eq_some).mp he⟩
    · obtain ⟨entry', he'⟩ := hheaped.live j hj
      exact ⟨entry', (entryAt_eq_some).mp he'⟩)
  rw [length_cons] at hle
  omega

lemma Inv.counters_without (h : Inv s) (he : entryAt (slots s.entries) i = some entry) :
    s.countValue = ((slots s.entries).set i none).reduceOption.length + 1 ∧
      s.totalBytes = (((slots s.entries).set i none).reduceOption.map (·.allocationBytes)).sum +
        entry.allocationBytes := by
  have hperm := reduceOption_set_none_perm (entryAt_eq_some.mp he)
  rw [h.count_eq, h.bytes_eq, hperm.length_eq, (hperm.map _).sum_nat]
  refine ⟨rfl, ?_⟩
  rw [map_cons, sum_cons]
  omega

lemma heapIndex_none (h : Heaped callbacks s.deadlineHeap) (he : entryAt s.entries i = some entry)
    (hi : i ∉ s.heap) : entry.heapIndex = none := by
  have hnone := h.position_none (live_slots.mpr ⟨entry, he⟩) hi
  change (entryAt s.entries i).bind _ = none at hnone
  rw [he] at hnone
  exact hnone

lemma entryAt_outside (h : Heaped callbacks s.deadlineHeap)
    (he : entryAt (slots s.entries) i = some entry) (hi : i ∉ s.heap) :
    entryAt s.entries i = some entry := by
  rw [entryAt_slots] at he
  obtain ⟨placed, hplaced, rfl⟩ := Option.map_eq_some_iff.mp he
  have hidx := heapIndex_none h hplaced hi
  rw [hplaced]
  cases placed
  cases hidx
  rfl

lemma entryAt_of_slots (h : entryAt (slots entries) i = some entry) :
    ∃ placed, entryAt entries i = some placed ∧ placed.unplaced = entry := by
  rw [entryAt_slots] at h
  exact Option.map_eq_some_iff.mp h

lemma slots_of_entryAt (h : entryAt entries i = some entry) :
    entryAt (slots entries) i = some entry.unplaced := by
  rw [entryAt_slots, h]
  rfl

/-! ### The heap -/

lemma leaveHeap_spec (h : Heaped callbacks s.deadlineHeap)
    (he : entryAt s.entries i = some entry) :
    Heaped callbacks (s.leaveHeap entry).deadlineHeap ∧
      slots (s.leaveHeap entry).entries = slots s.entries ∧
      (∀ j, j ∈ (s.leaveHeap entry).heap ↔ j ∈ s.heap ∧ j ≠ i) ∧
      (s.leaveHeap entry).books = s.books := by
  have hpos := h.position_iff i (live_slots.mpr ⟨entry, he⟩)
  change ∀ k, (entryAt s.entries i).bind _ = some k ↔ s.heap[k]? = some i at hpos
  rw [he] at hpos
  unfold leaveHeap
  cases hidx : entry.heapIndex with
  | none =>
    refine ⟨h, rfl, ?_, rfl⟩
    intro j
    refine ⟨fun hj => ⟨hj, ?_⟩, fun hj => hj.1⟩
    rintro rfl
    obtain ⟨k, hk⟩ := mem_iff_getElem?.mp hj
    have := (hpos k).mpr hk
    rw [Option.bind_some, hidx] at this
    cases this
  | some k =>
    have hk := (hpos k).mp hidx
    have hremoves := remove_removes callbacks_lawful h
      (lt_of_getElem? hk)
    have hent : (s.deadlineHeap.remove lessEntry setHeapPosition k).1 = i :=
      Option.some.inj (hremoves.entry.symm.trans hk)
    refine ⟨hremoves.heaped, hremoves.base_eq, ?_, rfl⟩
    intro j
    rw [← hent]
    exact hremoves.mem_iff j

lemma enterHeap_spec (h : Heaped callbacks s.deadlineHeap) (he : entryAt s.entries i = some entry)
    (hi : i ∉ s.heap) (hroom : s.heap.length < s.heapCapacity) :
    Sure (fun s' => Heaped callbacks s'.deadlineHeap ∧ slots s'.entries = slots s.entries ∧
      (∀ j, j ∈ s'.heap ↔ j = i ∨ j ∈ s.heap) ∧ s'.books = s.books) (s.enterHeap i) := by
  unfold enterHeap
  rw [if_pos hroom]
  obtain ⟨hheaped, hbase, -, hmem⟩ :=
    append_settles callbacks_lawful h (live_slots.mpr ⟨entry, he⟩) hi
  exact ⟨hheaped, hbase, hmem, rfl⟩

lemma unwrapEntry_eq (he : entryAt s.entries i = some entry) : s.unwrapEntry i = .ok entry := by
  unfold unwrapEntry
  rw [he]

lemma putEntry_heaped (h : Heaped callbacks s.deadlineHeap) {entry' : Entry}
    (he : entryAt s.entries i = some entry) (hi : i ∉ s.heap) (hidx : entry'.heapIndex = none) :
    Heaped callbacks (s.putEntry i entry').deadlineHeap := by
  have hlt := lt_of_entryAt he
  refine heaped_of_outside h hi ?_ ?_
  · intro j hj
    show entryAt (s.entries.set i _) j = _
    rw [entryAt_set hlt, if_neg hj]
  intro found hfound
  change entryAt (s.entries.set i _) i = _ at hfound
  rw [entryAt_set hlt, if_pos rfl] at hfound
  rw [← Option.some.inj hfound]
  exact hidx

end Scheduler

end Netz.Mqtt.Will
