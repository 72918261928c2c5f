/-
Polling the Will scheduler.

The pruned walk of the heap counts the entries that are due, because the heap is in order and
holds every scheduled one.  The loop then hands out exactly these, earliest first: its root is
due as long as any entry is.
-/
import Netz.Proofs.WillCalls

namespace Netz.Mqtt.Will

open Lib Netz.Mqtt.IndexedMinHeap Entry List
open Option hiding filter_map map_map

/-- Scheduled, with a deadline that has passed. -/
def Entry.dueBy (nowNs : Int) (entry : Entry) : Bool :=
  decide (entry.state = .scheduled) && decide (entry.deadlineNs ≤ nowNs)

lemma Entry.dueBy_iff {nowNs : Int} {entry : Entry} :
    entry.dueBy nowNs = true ↔ entry.state = .scheduled ∧ entry.deadlineNs ≤ nowNs := by
  simp [dueBy]

lemma Entry.deadline_le_of_rank_le {a b : Entry} (h : a.rank ≤ b.rank) :
    a.deadlineNs ≤ b.deadlineNs := by
  unfold rank at h
  rw [Prod.Lex.toLex_le_toLex] at h
  omega

namespace Scheduler

variable {s s' : Scheduler}

/-- The entries that a poll hands out. -/
def dueCount (s : Scheduler) (nowNs : Int) : Nat :=
  (s.entries.reduceOption.filter (dueBy nowNs)).length

lemma dueCount_eq (s : Scheduler) (nowNs : Int) :
    s.dueCount nowNs = ((slots s.entries).reduceOption.filter (dueBy nowNs)).length := by
  have hmap : (slots s.entries).reduceOption = s.entries.reduceOption.map unplaced := by
    simp [slots]
  rw [hmap, filter_map, length_map]
  rfl

lemma Inv.mem_heap (h : Inv s) {i : Nat} {entry : Entry}
    (he : entryAt (slots s.entries) i = some entry) {nowNs : Int}
    (hdue : entry.dueBy nowNs = true) : i ∈ s.heap :=
  (h.resident i entry he).mpr (dueBy_iff.mp hdue).1

lemma Inv.dueCount_le (h : Inv s) (nowNs : Int) : s.dueCount nowNs ≤ s.heap.length := by
  have hsub : places (dueBy nowNs) (slots s.entries) ⊆ s.heap := by
    intro i hi
    obtain ⟨entry, he, hdue⟩ := mem_places.mp hi
    exact h.mem_heap (entryAt_eq_some.mpr he) hdue
  rw [dueCount_eq, ← length_places]
  exact ((nodup_places _ _).subperm hsub).length_le

lemma Inv.root_rank_le (h : Inv s) {root i : Nat} {first entry : Entry}
    (hroot : s.heap.head? = some root) (hfirst : entryAt (slots s.entries) root = some first)
    (he : entryAt (slots s.entries) i = some entry) (hi : i ∈ s.heap) :
    first.rank ≤ entry.rank := by
  rw [head?_eq_getElem?] at hroot
  have hle := root_le h.heaped hroot hi
  change (entryAt (slots s.entries) root).elim _ _ ≤ (entryAt (slots s.entries) i).elim _ _ at hle
  rw [hfirst, he] at hle
  exact hle

/-! ### Counting -/

/-- The entry at a place of the heap is due. -/
def dueAt (s : Scheduler) (nowNs : Int) (heapIndex : Nat) : Bool :=
  (s.heap[heapIndex]?.bind (entryAt s.entries)).any fun entry => decide (entry.deadlineNs ≤ nowNs)

lemma countDueFrom_eq (s : Scheduler) (nowNs : Int) :
    ∀ fuel heapIndex, s.countDueFrom nowNs fuel heapIndex =
      Heap.countPruned (s.dueAt nowNs) s.heap.length fuel heapIndex := by
  intro fuel
  induction fuel with
  | zero =>
    intro heapIndex
    rfl
  | succ fuel ih =>
    intro heapIndex
    unfold countDueFrom Heap.countPruned
    by_cases hlt : s.heap.length ≤ heapIndex
    · rw [getElem?_eq_none hlt, if_pos hlt]
    rw [if_neg hlt, ih, ih, Nat.mul_comm heapIndex 2]
    have hget := getElem?_eq_getElem (not_le.mp hlt)
    have hdue : s.dueAt nowNs heapIndex = !(entryAt s.entries s.heap[heapIndex]).all
          (fun entry => decide (nowNs < entry.deadlineNs)) := by
      unfold dueAt
      rw [hget, bind_some]
      cases entryAt s.entries s.heap[heapIndex] with
      | none => rfl
      | some entry => simp [← decide_not]
    rw [hget]
    dsimp only
    rw [hdue]
    cases (entryAt s.entries s.heap[heapIndex]).all fun entry =>
      decide (nowNs < entry.deadlineNs) <;> simp

/-- **The walk counts every entry that is due.** -/
theorem Inv.countDueFrom_root (h : Inv s) (nowNs : Int) :
    s.countDueFrom nowNs s.heap.length 0 = s.dueCount nowNs := by
  have hent : ∀ j (hj : j < s.heap.length), ∃ entry, entryAt s.entries s.heap[j] = some entry ∧
        entryAt (slots s.entries) s.heap[j] = some entry.unplaced := by
    intro j hj
    obtain ⟨entry, he⟩ := live_slots.mp (h.heaped.live _ (List.getElem_mem hj))
    exact ⟨entry, he, slots_of_entryAt he⟩
  have hdueAt : ∀ j (hj : j < s.heap.length) entry, entryAt s.entries s.heap[j] = some entry →
      (s.dueAt nowNs j = true ↔ entry.deadlineNs ≤ nowNs) := by
    intro j hj entry he
    simp [List.getElem?_eq_getElem hj, he, dueAt]
  have hup : ∀ j, 0 < j → j < s.heap.length → s.dueAt nowNs j = true →
      s.dueAt nowNs (Heap.parent j) = true := by
    intro j hj hlt hdue
    have hp := (Heap.parent_lt hj).trans hlt
    obtain ⟨child, hc, hcs⟩ := hent j hlt
    obtain ⟨above, ha, has⟩ := hent _ hp
    have hle := h.heaped.ordered j hj hlt
    change (entryAt (slots s.entries) (s.heap.getD (Heap.parent j) 0)).elim _ _ ≤
      (entryAt (slots s.entries) (s.heap.getD j 0)).elim _ _ at hle
    rw [List.getD_eq_getElem?_getD, List.getD_eq_getElem?_getD, List.getElem?_eq_getElem hlt,
      List.getElem?_eq_getElem hp, getD_some, getD_some, hcs, has] at hle
    rw [hdueAt _ hp above ha]
    exact (deadline_le_of_rank_le hle).trans ((hdueAt j hlt child hc).mp hdue)
  rw [countDueFrom_eq, Heap.countPruned_root hup le_rfl, dueCount_eq, ← length_places]
  -- The places of the heap that are due, and the slots they name.
  have hmap : (((List.range s.heap.length).filter (s.dueAt nowNs)).map (s.heap.getD · 0)).Perm
      (places (dueBy nowNs) (slots s.entries)) := by
    rw [List.perm_ext_iff_of_nodup]
    · intro i
      rw [List.mem_map, mem_places]
      constructor
      · rintro ⟨j, hj, rfl⟩
        obtain ⟨hj, hdue⟩ := List.mem_filter.mp hj
        have hlt := List.mem_range.mp hj
        obtain ⟨entry, he, hes⟩ := hent j hlt
        rw [List.getD_eq_getElem?_getD, List.getElem?_eq_getElem hlt]
        refine ⟨_, entryAt_eq_some.mp hes, (dueBy_iff).mpr ⟨?_, (hdueAt j hlt entry he).mp hdue⟩⟩
        exact (h.resident _ _ hes).mp (List.getElem_mem hlt)
      rintro ⟨entry, he, hdue⟩
      have hes := entryAt_eq_some.mpr he
      obtain ⟨j, hj⟩ := List.mem_iff_getElem?.mp (h.mem_heap hes hdue)
      obtain ⟨hlt, hval⟩ := List.getElem_of_getElem? hj
      obtain ⟨placed, hp, hps⟩ := hent j hlt
      rw [hval, hes] at hps
      refine ⟨j, List.mem_filter.mpr ⟨List.mem_range.mpr hlt, ?_⟩, ?_⟩
      · rw [hdueAt j hlt placed hp]
        have := (dueBy_iff.mp hdue).2
        rw [some.inj hps] at this
        exact this
      · simp [hj]
    · refine List.Nodup.map_on ?_ (List.nodup_range.filter _)
      intro a ha b hb hab
      have hla := List.mem_range.mp (List.mem_filter.mp ha).1
      have hlb := List.mem_range.mp (List.mem_filter.mp hb).1
      rw [List.getD_eq_getElem?_getD, List.getD_eq_getElem?_getD, List.getElem?_eq_getElem hla,
        List.getElem?_eq_getElem hlb, getD_some] at hab
      refine h.heaped.index_unique (List.getElem?_eq_getElem hla) ?_
      rw [hab]
      exact List.getElem?_eq_getElem hlb
    · exact nodup_places _ _
  rw [← hmap.length_eq, List.length_map]

/-! ### Handing out -/

/-- What the entries are ordered by, slot by slot. -/
def rankAt (s : Scheduler) (index : Nat) : Int ×ₗ Nat := callbacks.key (slots s.entries) index

lemma rankAt_eq {i : Nat} {entry : Entry} (he : entryAt (slots s.entries) i = some entry) :
    s.rankAt i = entry.rank := by
  show (entryAt (slots s.entries) i).elim _ _ = _
  rw [he]
  rfl

/-- The handle names an entry that is due. -/
def IsDue (s : Scheduler) (nowNs : Int) (handle : Handle) : Prop :=
  ∃ entry, entryAt (slots s.entries) handle.index = some entry ∧
    entry.generation = handle.generation ∧ entry.dueBy nowNs = true

/-- Handles that were handed out: those of the entries that were due, earliest first. -/
structure Polls (s : Scheduler) (nowNs : Int) (handles : List Handle) (s' : Scheduler) : Prop where
  steps : Steps s s' [] (handles.filterMap fun handle => s.serialAt handle.index)
  nodup : handles.Nodup
  mem_iff : ∀ handle, handle ∈ handles ↔ s.IsDue nowNs handle
  sorted : handles.Pairwise fun a b => s.rankAt a.index ≤ s.rankAt b.index

/-- When the root is not due, nothing is. -/
theorem Inv.not_isDue (h : Inv s) {nowNs : Int} (hroot : ∀ root first, s.heap.head? = some root →
      entryAt (slots s.entries) root = some first → nowNs < first.deadlineNs) (handle : Handle) :
    ¬ s.IsDue nowNs handle := by
  rintro ⟨entry, he, -, hdue⟩
  have hmem := h.mem_heap he hdue
  cases hhead : s.heap.head? with
  | none =>
    rw [head?_eq_none_iff] at hhead
    simp [hhead] at hmem
  | some root =>
    obtain ⟨first, hfirst⟩ := h.heaped.live root (mem_of_head? hhead)
    have hle := deadline_le_of_rank_le (h.root_rank_le hhead hfirst he hmem)
    have hlate := hroot root first hhead hfirst
    have := (dueBy_iff.mp hdue).2
    omega

lemma Inv.polls_nothing (h : Inv s) {nowNs : Int} (hnone : ∀ handle, ¬ s.IsDue nowNs handle) :
    Polls s nowNs [] s where
  steps := Steps.refl h
  nodup := nodup_nil
  mem_iff handle := ⟨fun hc => (by cases hc), fun hc => absurd hc (hnone handle)⟩
  sorted := Pairwise.nil

section

variable {root : Nat} {entry : Entry} {nowNs : Int}
  (u : Updates s root entry { entry with state := .due } s')

include u

lemma Updates.serialAt_eq (j : Nat) : s'.serialAt j = s.serialAt j := by
  have hserial : ∀ t : Scheduler, t.serialAt j = (entryAt (slots t.entries) j).map (·.serial) := by
    intro t
    unfold serialAt
    rw [entryAt_slots, Option.map_map]
    rfl
  rw [hserial, hserial, u.entryAt_eq]
  by_cases hj : j = root
  · simp [hj, u.old]
  · rw [if_neg hj]

lemma Updates.claims (h : Inv s) (hdue : entry.dueBy nowNs = true) :
    Steps s s' [] [entry.serial] := by
  refine u.steps h rfl rfl ?_
  rw [pending?_of_ne (by rw [(dueBy_iff.mp hdue).1]; simp)]
  rfl

lemma Updates.isDue_iff (handle : Handle) :
    s'.IsDue nowNs handle ↔ s.IsDue nowNs handle ∧ handle.index ≠ root := by
  unfold IsDue
  rw [u.entryAt_eq]
  by_cases hj : handle.index = root
  · rw [if_pos hj]
    refine ⟨?_, fun hc => absurd hj hc.2⟩
    rintro ⟨found, hfound, -, hdue⟩
    rw [← some.inj hfound] at hdue
    exact absurd (dueBy_iff.mp hdue).1 (by simp)
  · simp [hj]

lemma Updates.dueCount_eq (hdue : entry.dueBy nowNs = true) :
    s'.dueCount nowNs + 1 = s.dueCount nowNs := by
  have hperm := (u.elements_perm.filter (dueBy nowNs)).length_eq
  have hnot : ({ entry with state := .due } : Entry).dueBy nowNs = false := by
    unfold dueBy
    simp
  rw [filter_cons_of_pos hdue, filter_cons_of_neg (by rw [hnot]; simp),
    length_cons] at hperm
  simp [Scheduler.dueCount_eq, hperm]

/-- **The root goes first, and the rest follows.** -/
theorem Updates.polls (h : Inv s) (hroot : s.heap.head? = some root)
    (hdue : entry.dueBy nowNs = true) {rest : List Handle} {s'' : Scheduler}
    (hrest : Polls s' nowNs rest s'') : Polls s nowNs (⟨root, entry.generation⟩ :: rest) s'' where
  steps := by
    have hserials : (rest.filterMap fun handle => s'.serialAt handle.index) =
        rest.filterMap fun handle => s.serialAt handle.index :=
      filterMap_congr fun handle _ => u.serialAt_eq handle.index
    have htrans := (u.claims h hdue).trans hrest.steps
    rw [hserials] at htrans
    have hcons : (⟨root, entry.generation⟩ :: rest).filterMap
        (fun handle : Handle => s.serialAt handle.index) =
          entry.serial :: rest.filterMap fun handle => s.serialAt handle.index := by
      refine filterMap_cons_some ?_
      exact Scheduler.serialAt_eq u.old
    rw [hcons]
    exact htrans
  nodup := by
    refine nodup_cons.mpr ⟨?_, hrest.nodup⟩
    intro hc
    exact ((u.isDue_iff _).mp ((hrest.mem_iff _).mp hc)).2 rfl
  mem_iff := by
    intro handle
    rw [mem_cons, hrest.mem_iff, u.isDue_iff]
    constructor
    · rintro (rfl | hc)
      · exact ⟨entry, u.old, rfl, hdue⟩
      · exact hc.1
    intro hc
    by_cases hj : handle.index = root
    · left
      obtain ⟨found, hfound, hgen, -⟩ := hc
      rw [hj, u.old] at hfound
      rw [← some.inj hfound] at hgen
      cases handle
      cases hj
      cases hgen
      rfl
    · exact .inr ⟨hc, hj⟩
  sorted := by
    have hkeep : ∀ handle ∈ rest, ∃ found, entryAt (slots s.entries) handle.index = some found ∧
        handle.index ∈ s.heap ∧ s.rankAt handle.index = found.rank ∧
          s'.rankAt handle.index = found.rank := by
      intro handle hhandle
      obtain ⟨⟨found, hfound, -, hd⟩, hj⟩ := (u.isDue_iff handle).mp ((hrest.mem_iff handle).mp hhandle)
      refine ⟨found, hfound, h.mem_heap hfound hd, rankAt_eq hfound, rankAt_eq ?_⟩
      rw [u.entryAt_eq, if_neg hj]
      exact hfound
    refine pairwise_cons.mpr ⟨?_, hrest.sorted.imp_of_mem ?_⟩
    · intro handle hhandle
      obtain ⟨found, hfound, hmem, hrank, -⟩ := hkeep handle hhandle
      rw [hrank, rankAt_eq u.old]
      exact h.root_rank_le hroot u.old hfound hmem
    intro a b ha hb hle
    obtain ⟨x, -, -, hx, hx'⟩ := hkeep a ha
    obtain ⟨y, -, -, hy, hy'⟩ := hkeep b hb
    rw [hx, hy, ← hx', ← hy']
    exact hle

end

lemma Inv.root_entry (h : Inv s) {root : Nat} (hroot : s.heap.head? = some root) :
    ∃ placed entry, entryAt s.entries root = some placed ∧
      entryAt (slots s.entries) root = some entry ∧ placed.generation = entry.generation ∧
      placed.deadlineNs = entry.deadlineNs ∧ entry.state = .scheduled := by
  have hmem := mem_of_head? hroot
  obtain ⟨placed, hplaced⟩ := live_slots.mp (h.heaped.live root hmem)
  have hslot := slots_of_entryAt hplaced
  exact ⟨placed, _, hplaced, hslot, rfl, rfl, (h.resident root _ hslot).mp hmem⟩

lemma Inv.not_isDue_of_root (h : Inv s) {nowNs : Int} {root : Nat} {entry : Entry}
    (hroot : s.heap.head? = some root) (he : entryAt (slots s.entries) root = some entry)
    (hlate : nowNs < entry.deadlineNs) (handle : Handle) : ¬ s.IsDue nowNs handle := by
  refine h.not_isDue ?_ handle
  intro root' first hroot' hfirst
  rw [hroot, some.injEq] at hroot'
  rw [← hroot', he, some.injEq] at hfirst
  rw [← hfirst]
  exact hlate

lemma Inv.not_isDue_of_empty (h : Inv s) {nowNs : Int} (hroot : s.heap.head? = none)
    (handle : Handle) : ¬ s.IsDue nowNs handle := by
  refine h.not_isDue ?_ handle
  simp [hroot]

/-- The loop hands out whatever is due, if there is room for it. -/
theorem pollLoop_spec (nowNs : Int) (outLen : Nat) :
    ∀ (fuel : Nat) (s : Scheduler) (written : List Handle), Inv s → s.dueCount nowNs ≤ fuel →
      written.length + s.dueCount nowNs ≤ outLen →
      Delivers (fun _ => False) (fun r => ∃ handles, r.1 = written ++ handles ∧
        Polls s nowNs handles r.2) (pollLoop nowNs outLen fuel s written) := by
  intro fuel
  induction fuel with
  | zero =>
    intro s written h hfuel _
    refine ⟨[], (append_nil _).symm, h.polls_nothing ?_⟩
    rintro handle ⟨entry, he, -, hdue⟩
    rw [dueCount_eq] at hfuel
    have hmem : entry ∈ (slots s.entries).reduceOption.filter (dueBy nowNs) :=
      mem_filter.mpr ⟨reduceOption_mem_iff.mpr
        (mem_of_getElem? (entryAt_eq_some.mp he)), hdue⟩
    have := length_pos_of_mem hmem
    omega
  | succ fuel ih =>
    intro s written h hfuel hout
    unfold pollLoop
    cases hroot : s.heap.head? with
    | none => exact ⟨[], (append_nil _).symm, h.polls_nothing (h.not_isDue_of_empty hroot)⟩
    | some root =>
      obtain ⟨placed, entry, hplaced, he, hgen, hdeadline, hstate⟩ := h.root_entry hroot
      dsimp only
      rw [unwrapEntry_eq hplaced]
      refine Delivers.ite (fun hlate => ?_) (fun hdue => ?_)
      · rw [hdeadline] at hlate
        exact ⟨[], (append_nil _).symm, h.polls_nothing (h.not_isDue_of_root hroot he hlate)⟩
      rw [hdeadline] at hdue
      have hd : entry.dueBy nowNs = true := (dueBy_iff).mpr ⟨hstate, not_lt.mp hdue⟩
      refine Delivers.bind (claimRoot_spec h hroot he) ?_
      intro s' u
      have hcount := u.dueCount_eq hd
      rw [if_neg (by omega)]
      refine Delivers.mono (ih s' _ (u.claims h hd).inv (by omega) ?_) ?_
      · rw [length_append, length_singleton]
        omega
      rintro r ⟨rest, hr, hrest⟩
      refine ⟨_, ?_, u.polls h hroot hd hrest⟩
      rw [hr, hgen, append_assoc]
      rfl

/-- **`pollDue` refuses a buffer that is too small, or hands out everything that is due.** -/
theorem pollDue_spec (h : Inv s) (nowNs : Int) (outLen : Nat) :
    if outLen < s.dueCount nowNs then s.pollDue nowNs outLen = .error .dueBufferTooSmall
    else ∃ handles s', s.pollDue nowNs outLen = .ok (handles, s') ∧ Polls s nowNs handles s' := by
  unfold pollDue
  rw [h.countDueFrom_root]
  by_cases hlt : outLen < s.dueCount nowNs
  · rw [if_pos hlt, if_pos hlt]
  rw [if_neg hlt, if_neg hlt]
  obtain ⟨⟨handles, s'⟩, heq, rest, hrest, hpolls⟩ :=
    (pollLoop_spec nowNs outLen s.heap.length s [] h (h.dueCount_le nowNs) (by simpa using not_lt.mp hlt)).exists_ok
  refine ⟨handles, s', heq, ?_⟩
  change handles = [] ++ rest at hrest
  simp [hrest, hpolls]

/-- One handle, of an entry that no other due one precedes. -/
structure PollsOne (s : Scheduler) (nowNs : Int) (handle : Handle) (s' : Scheduler) : Prop where
  steps : Steps s s' [] (s.serialAt handle.index).toList
  due : s.IsDue nowNs handle
  first : ∀ other, s.IsDue nowNs other → s.rankAt handle.index ≤ s.rankAt other.index

/-- **`pollOneDue` hands out the first entry that is due.** -/
theorem pollOneDue_spec (h : Inv s) (nowNs : Int) :
    (s.pollOneDue nowNs = .ok (none, s) ∧ ∀ handle, ¬ s.IsDue nowNs handle) ∨
      ∃ handle s', s.pollOneDue nowNs = .ok (some handle, s') ∧ PollsOne s nowNs handle s' := by
  unfold pollOneDue
  cases hroot : s.heap.head? with
  | none => exact .inl ⟨rfl, h.not_isDue_of_empty hroot⟩
  | some root =>
    obtain ⟨placed, entry, hplaced, he, hgen, hdeadline, hstate⟩ := h.root_entry hroot
    dsimp only
    rw [unwrapEntry_eq hplaced]
    by_cases hlate : nowNs < placed.deadlineNs
    · left
      refine ⟨?_, h.not_isDue_of_root hroot he (hdeadline ▸ hlate)⟩
      show (if nowNs < placed.deadlineNs then _ else _) = _
      rw [if_pos hlate]
    right
    have hd : entry.dueBy nowNs = true :=
      (dueBy_iff).mpr ⟨hstate, hdeadline ▸ not_lt.mp hlate⟩
    obtain ⟨s', heq, u⟩ := (claimRoot_spec h hroot he).exists_ok
    refine ⟨⟨root, placed.generation⟩, s', ?_, ?_, ⟨entry, he, hgen.symm, hd⟩, ?_⟩
    · show (if nowNs < placed.deadlineNs then _ else s.claimRoot root >>= _) = _
      rw [if_neg hlate, heq]
      rfl
    · show Steps s s' [] (s.serialAt root).toList
      rw [Scheduler.serialAt_eq he]
      exact u.claims h hd
    rintro other ⟨found, hfound, -, hdue⟩
    rw [rankAt_eq he, rankAt_eq hfound]
    exact h.root_rank_le hroot he hfound (h.mem_heap hfound hdue)

end Scheduler

end Netz.Mqtt.Will
