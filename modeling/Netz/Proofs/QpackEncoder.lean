/-
What pending sections refer to stays in the table.

The counts are a tally of all references, and the index is that of the first sections.  Both
loops that ask whether entries may leave go through the entries as the table's own loop does, so
the entries that leave are ones they asked about.
-/
import Mathlib.Data.List.Perm.Basic
import Netz.Http.QpackEncoder
import Netz.Lib.Machine
import Netz.Proofs.QpackBlock

namespace Netz.Http.Qpack

open Lib QpackEncodeState DynamicEntry List Option

/-! ### References of a block -/

lemma nodup_references {base : Nat} {matched : List (HeaderField × Option Match)}
    {references : List Nat} (h : references.Nodup) :
    (encodeFieldLines base matched references).2.Nodup := by
  induction matched generalizing references with
  | nil => exact h
  | cons line rest ih =>
    refine @ih (noteReference references (encodeFieldLine base line.1 line.2).2) ?_
    cases (encodeFieldLine base line.1 line.2).2 with
    | none => exact h
    | some index =>
      unfold noteReference appendReferenceUnique
      dsimp only
      by_cases hmem : index ∈ references
      · simp [hmem, h]
      rw [if_neg hmem]
      exact nodup_append.mpr ⟨h, nodup_singleton index, by
        intro a ha b hb heq
        rw [mem_singleton.mp hb] at heq
        exact hmem (heq ▸ ha)⟩

lemma maxReferencedInsertCount_le {references : List Nat} {known : Nat}
    (h : ∀ index ∈ references, index < known) : maxReferencedInsertCount references ≤ known := by
  have hfold : ∀ start ≤ known, references.foldl
      (fun required absoluteIndex => max required (absoluteIndex + 1)) start ≤ known := by
    induction references with
    | nil => exact fun start hstart => hstart
    | cons index rest ih =>
      intro start hstart
      refine ih (fun i hi => h i (mem_cons_of_mem index hi)) _ ?_
      exact Nat.max_le.mpr ⟨hstart, h index mem_cons_self⟩
  exact hfold 0 (Nat.zero_le known)

lemma count_references {pendingSections : List PendingSection}
    (h : ∀ pending ∈ pendingSections, pending.references.Nodup) (index : Nat) :
    (pendingSections.flatMap (·.references)).count index =
      pendingSections.countP fun pending => decide (index ∈ pending.references) := by
  induction pendingSections with
  | nil => rfl
  | cons pending rest ih =>
    rw [flatMap_cons, count_append,
      ih fun other hother => h other (mem_cons_of_mem pending hother)]
    have hnodup := h pending mem_cons_self
    by_cases hmem : index ∈ pending.references
    · rw [count_eq_one_of_mem hnodup hmem]
      simp [hmem, Nat.add_comm]
    · rw [count_eq_zero_of_not_mem hmem]
      simp [hmem]

namespace QpackEncodeState

/-! ### The invariant -/

/-- A pending section refers to entries that the decoder has acknowledged and that are there. -/
structure Held (state : QpackEncodeState) (pending : PendingSection) : Prop where
  nodup : pending.references.Nodup
  known : ∀ index ∈ pending.references, index < state.knownReceivedCount
  present : ∀ index ∈ pending.references, (state.table.absolute index).isSome = true
  required : pending.requiredInsertCount = maxReferencedInsertCount pending.references

structure Sound (state : QpackEncodeState) : Prop where
  table : state.table.Sound
  known_le : state.knownReceivedCount ≤ state.table.insertCount
  sections : ∀ pending ∈ state.pendingSections, state.Held pending
  counts : Tally (state.pendingSections.flatMap (·.references)) state.referenceCounts
  index : Firsts (·.streamId) state.pendingSections state.pendingSectionIndex

lemma sound_init {peerMaxCapacity : Nat} (h : peerMaxCapacity ≤ maxU64) (maxStreamBuffer : Nat) :
    (init peerMaxCapacity maxStreamBuffer).Sound where
  table := DynamicTable.sound_init h
  known_le := Nat.le_refl 0
  sections := fun _ hmem => by cases hmem
  counts := Tally.empty
  index := fun _ => rfl

lemma sound_awaiting (maxStreamBuffer : Nat) :
    (initAwaitingPeerSettings maxStreamBuffer).Sound where
  table := DynamicTable.sound_init (Nat.zero_le _)
  known_le := Nat.le_refl 0
  sections := fun _ hmem => by cases hmem
  counts := Tally.empty
  index := fun _ => rfl

/-- Before the peer's settings have arrived the table has no room. -/
def Awaiting (state : QpackEncodeState) : Prop :=
  state.peerMaxCapacity = none → state.table.maxCapacity = 0

/-- An entry that is received and that no section refers to. -/
def Free (state : QpackEncodeState) (absoluteIndex : Nat) : Prop :=
  absoluteIndex < state.knownReceivedCount ∧
    ∀ pending ∈ state.pendingSections, absoluteIndex ∉ pending.references

variable {state next : QpackEncodeState} {entries : List DynamicEntry} {capacity : Nat}

lemma Sound.free (h : state.Sound) {absoluteIndex : Nat}
    (hevict : state.entryEvictable absoluteIndex = true) : state.Free absoluteIndex := by
  unfold entryEvictable at hevict
  obtain ⟨hknown, hevict⟩ := of_guard hevict nofun
  rw [isNone_iff_eq_none] at hevict
  refine ⟨not_le.mp hknown, ?_⟩
  intro pending hpend hmem
  have hcounted := h.counts.get_isSome.mpr (mem_flatMap.mpr ⟨pending, hpend, hmem⟩)
  simp [hevict] at hcounted

/-- The entries that leave one table for another are free. -/
def OnlyFree (state : QpackEncodeState) (table : DynamicTable) : Prop :=
  ∀ entry ∈ state.table.live, entry ∈ table.live ∨ state.Free entry.absoluteIndex

lemma OnlyFree.refl (state : QpackEncodeState) : state.OnlyFree state.table :=
  fun _ hmem => .inl hmem

/-- **A table from which only free entries have left has all that sections refer to.** -/
theorem Sound.withTable (h : state.Sound) (htable : next.table.Sound)
    (hcount : state.table.insertCount ≤ next.table.insertCount) (hfree : state.OnlyFree next.table)
    (hknown : next.knownReceivedCount = state.knownReceivedCount)
    (hpend : next.pendingSections = state.pendingSections)
    (hindex : next.pendingSectionIndex = state.pendingSectionIndex)
    (hcounts : next.referenceCounts = state.referenceCounts) : next.Sound := by
  refine ⟨htable, ?_, ?_, ?_, ?_⟩
  · rw [hknown]
    exact Nat.le_trans h.known_le hcount
  · intro pending hmem
    rw [hpend] at hmem
    have hheld := h.sections pending hmem
    refine ⟨hheld.nodup, by rw [hknown]; exact hheld.known, ?_, hheld.required⟩
    intro index hindex'
    obtain ⟨entry, hent⟩ := isSome_iff_exists.mp (hheld.present index hindex')
    obtain ⟨hlive, rfl⟩ := h.table.absolute.mp hent
    rcases hfree entry hlive with hkept | hgone
    · exact isSome_iff_exists.mpr ⟨entry, htable.absolute.mpr ⟨hkept, rfl⟩⟩
    · exact absurd hindex' (hgone.2 pending hmem)
  · rw [hpend, hcounts]
    exact h.counts
  · rw [hpend, hindex]
    exact h.index

/-! ### Eviction -/

lemma canEvictLoop_free (h : state.Sound) {incoming : Nat}
    (hincoming : incoming ≤ state.table.capacity)
    (hcan : state.canEvictLoop incoming (totalSize size entries) entries = true) :
    ∀ entry ∈ entries,
      entry ∈ evict size (state.table.capacity - incoming) entries ∨
        state.Free entry.absoluteIndex := by
  induction entries with
  | nil => simp
  | cons first rest ih =>
    unfold canEvictLoop at hcan
    by_cases hover : state.table.capacity < totalSize size (first :: rest) ∨
        state.table.capacity - totalSize size (first :: rest) < incoming
    · rw [if_pos hover, Bool.and_eq_true, totalSize_cons, Nat.add_sub_cancel_left] at hcan
      rw [evict_cons_of_lt size (by omega)]
      intro entry hmem
      rcases mem_cons.mp hmem with rfl | hrest
      · exact .inr (h.free hcan.1)
      · exact ih hcan.2 entry hrest
    intro entry hmem
    rw [evict_of_le size (by omega)]
    exact .inl hmem

lemma ensureEvictableLoop_free (h : state.Sound) :
    state.ensureEvictableLoop capacity (totalSize size entries) entries ≠ .error .panic ∧
      (state.ensureEvictableLoop capacity (totalSize size entries) entries = .ok () →
        ∀ entry ∈ entries,
          entry ∈ evict size capacity entries ∨ state.Free entry.absoluteIndex) := by
  induction entries with
  | nil => simp [ensureEvictableLoop]
  | cons first rest ih =>
    unfold ensureEvictableLoop
    by_cases hover : capacity < totalSize size (first :: rest)
    · rw [if_pos hover]
      by_cases hevict : state.entryEvictable first.absoluteIndex = true
      · rw [if_pos hevict, totalSize_cons, Nat.add_sub_cancel_left, evict_cons_of_lt size hover]
        refine ⟨ih.1, ?_⟩
        intro hok entry hmem
        rcases mem_cons.mp hmem with rfl | hrest
        · exact .inr (h.free hevict)
        · exact ih.2 hok entry hrest
      · simp [hevict]
    · rw [if_neg hover, evict_of_le size (not_lt.mp hover)]
      exact ⟨fun heq => (by cases heq), fun _ entry hmem => .inl hmem⟩

lemma ensureEvictableForCapacity_free {state : QpackEncodeState} (h : state.Sound)
    {capacity : Nat} :
    state.ensureEvictableForCapacity capacity ≠ .error .panic ∧
      (state.ensureEvictableForCapacity capacity = .ok () → ∀ entry ∈ state.table.live,
          entry ∈ evict size capacity state.table.live ∨ state.Free entry.absoluteIndex) := by
  unfold ensureEvictableForCapacity
  by_cases hlarge : state.table.maxCapacity < capacity
  · simp [hlarge]
  · rw [if_neg hlarge, h.table.size_eq]
    exact ensureEvictableLoop_free h

/-- What a call without an answer does: it fails, but not in an assertion, or it leaves a sound
state whose table has lost free entries only. -/
def Keeps (state : QpackEncodeState) (result : Except Error QpackEncodeState) : Prop :=
  result ≠ .error .panic ∧
    ∀ next, result = .ok next →
      next.Sound ∧ state.OnlyFree next.table ∧ (state.Awaiting → next.Awaiting)

lemma Keeps.error (state : QpackEncodeState) {e : Error} (h : e ≠ .panic) :
    state.Keeps (.error e) := by
  refine ⟨?_, fun next hnext => by cases hnext⟩
  simp [h]

lemma Keeps.ok (h : next.Sound) (hfree : state.OnlyFree next.table)
    (hwait : state.Awaiting → next.Awaiting) : state.Keeps (.ok next) := by
  refine ⟨fun heq => (by cases heq), ?_⟩
  intro other hother
  cases hother
  exact ⟨h, hfree, hwait⟩

lemma Sound.setCapacity (h : state.Sound) (capacity : Nat) :
    state.Keeps (state.setCapacity capacity) := by
  obtain ⟨hpanic, hfree⟩ := @ensureEvictableForCapacity_free state h capacity
  unfold QpackEncodeState.setCapacity
  cases hensure : state.ensureEvictableForCapacity capacity with
  | error e =>
    refine Keeps.error state ?_
    rintro rfl
    exact hpanic hensure
  | ok =>
    cases hset : state.table.setCapacity capacity with
    | error e =>
      refine Keeps.error state ?_
      rintro rfl
      unfold DynamicTable.setCapacity at hset
      split at hset
      · cases hset
      · cases hset
    | ok table =>
      obtain ⟨hsound, -, hlive, -, hmax, hcount⟩ := h.table.setCapacity hset
      have honly : state.OnlyFree table := by
        intro entry hmem
        rw [hlive]
        exact hfree hensure entry hmem
      refine Keeps.ok ?_ honly (fun hwait hnone => hmax.trans (hwait hnone))
      exact h.withTable hsound (Nat.le_of_eq hcount.symm) honly rfl rfl rfl rfl

lemma Sound.configurePeerCapacity (h : state.Sound) (hwait : state.Awaiting)
    (hcapacity : capacity ≤ maxU64) : state.Keeps (state.configurePeerCapacity capacity) := by
  unfold QpackEncodeState.configurePeerCapacity
  cases hpeer : state.peerMaxCapacity with
  | some configured =>
    dsimp only
    by_cases hother : configured ≠ capacity
    · rw [if_pos hother]
      exact Keeps.error state (by decide)
    · rw [if_neg hother]
      exact Keeps.ok h (OnlyFree.refl state) id
  | none =>
    by_cases hused : state.table.insertCount ≠ 0 ∨ state.table.entryCount ≠ 0
    · rw [if_pos hused]
      exact Keeps.error state (by decide)
    rw [if_neg hused]
    have hmax := hwait hpeer
    have hcap := h.table.capacity_le
    have hnothing : ∀ table, state.OnlyFree table := by
      have hzero : state.table.live.length = 0 := by
        rw [DynamicTable.length_live]
        omega
      intro table entry hmem
      simp [length_eq_zero_iff.mp hzero] at hmem
    have htable : DynamicTable.Sound { state.table with maxCapacity := capacity } :=
      ⟨⟨h.table.head_le, h.table.size_eq, h.table.numbered, h.table.names, h.table.exacts⟩,
        h.table.size_le, by
        show state.table.capacity ≤ capacity
        omega, hcapacity, h.table.count_le⟩
    have hresized : Sound
        { state with table := { state.table with maxCapacity := capacity }, peerMaxCapacity := none } :=
      h.withTable htable le_rfl (hnothing _) rfl rfl rfl rfl
    by_cases hzero : capacity = 0
    · rw [if_pos hzero]
      refine Keeps.ok ?_ (hnothing _) (fun _ hnone => by cases hnone)
      exact hresized.withTable htable le_rfl (fun _ hmem => .inl hmem) rfl rfl rfl rfl
    rw [if_neg hzero]
    obtain ⟨hpanic, hset⟩ := hresized.setCapacity capacity
    cases hres : QpackEncodeState.setCapacity
        { state with table := { state.table with maxCapacity := capacity }, peerMaxCapacity := none }
        capacity with
    | error e =>
      refine Keeps.error state ?_
      rintro rfl
      exact hpanic hres
    | ok next =>
      obtain ⟨hnext, -, -⟩ := hset next hres
      refine Keeps.ok ?_ (hnothing _) (fun _ hnone => by cases hnone)
      exact hnext.withTable hnext.table le_rfl (fun _ hmem => .inl hmem) rfl rfl rfl
        rfl

/-! ### Releasing sections -/

lemma Sound.withSections (h : state.Sound) (htable : next.table = state.table)
    (hknown : state.knownReceivedCount ≤ next.knownReceivedCount)
    (hknown_le : next.knownReceivedCount ≤ state.table.insertCount)
    (hpend : ∀ pending ∈ next.pendingSections, pending ∈ state.pendingSections)
    (hcounts : Tally (next.pendingSections.flatMap (·.references)) next.referenceCounts)
    (hindex : Firsts (·.streamId) next.pendingSections next.pendingSectionIndex) : next.Sound := by
  refine ⟨?_, ?_, ?_, hcounts, hindex⟩
  · rw [htable]
    exact h.table
  · rw [htable]
    exact hknown_le
  intro pending hmem
  have hheld := h.sections pending (hpend pending hmem)
  refine ⟨hheld.nodup, ?_, ?_, hheld.required⟩
  · intro index hindex'
    exact Nat.lt_of_lt_of_le (hheld.known index hindex') hknown
  · rw [htable]
    exact hheld.present

/-- **A section is released: it is gone, and all is right again.** -/
theorem Sound.releaseSection (h : state.Sound) {index : Nat} {pending : PendingSection}
    (hpend : state.pendingSections[index]? = some pending) :
    ∃ next, state.releaseSection index = .ok next ∧ next.Sound ∧
      next.pendingSections = state.pendingSections.eraseIdx index ∧
      next.table = state.table ∧ next.knownReceivedCount = state.knownReceivedCount ∧
      next.peerMaxCapacity = state.peerMaxCapacity := by
  have hcounts : Tally (pending.references ++
      (state.pendingSections.eraseIdx index).flatMap (·.references)) state.referenceCounts := by
    refine h.counts.congr ?_
    intro k
    obtain ⟨hlt, hat⟩ := List.getElem_of_getElem? hpend
    have hperm := (List.getElem_cons_eraseIdx_perm hlt).flatMap_right (·.references)
    rw [hat] at hperm
    exact hperm.count_eq k
  obtain ⟨counts, hdrop, htally⟩ := hcounts.dropAll
  unfold QpackEncodeState.releaseSection
  rw [hpend]
  dsimp only
  rw [hdrop]
  refine ⟨_, rfl, ?_, rfl, rfl, rfl, rfl⟩
  exact h.withSections rfl le_rfl h.known_le
    (fun other hother => List.mem_of_mem_eraseIdx hother) htally (h.index.erase hpend).finish

/-- **All sections of a stream are released.** -/
theorem Sound.releaseSectionsForStream (h : state.Sound) (streamId : Nat) :
    ∃ released next, state.releaseSectionsForStream streamId = .ok (released, next) ∧
      next.Sound ∧ next.table = state.table ∧ next.peerMaxCapacity = state.peerMaxCapacity := by
  unfold QpackEncodeState.releaseSectionsForStream
  cases hstart : state.pendingSectionIndex.get streamId with
  | none => exact ⟨0, state, rfl, h, rfl, rfl⟩
  | some start =>
    dsimp only
    have hfirst := h.index streamId
    rw [hstart] at hfirst
    obtain ⟨hlt, -, hpre⟩ := findIdx?_eq_some_iff_getElem.mp hfirst.symm
    -- Nothing before the first section of the stream is released.
    have hfront : ∀ pending ∈ state.pendingSections.take start,
        (pending.streamId == streamId) = false := by
      intro pending hmem
      obtain ⟨i, hi, hat⟩ := getElem_of_mem hmem
      rw [length_take] at hi
      rw [getElem_take] at hat
      have hother := hpre i (by omega)
      rw [hat] at hother
      simpa using hother
    have hkept : state.pendingSections.take start ++ (state.pendingSections.drop start).filter
          (fun pending => !(pending.streamId == streamId)) =
        state.pendingSections.filter (fun pending => !(pending.streamId == streamId)) := by
      have hall : (state.pendingSections.take start).filter
          (fun pending => !(pending.streamId == streamId)) = state.pendingSections.take start :=
        filter_eq_self.mpr fun pending hmem => by rw [hfront pending hmem]; rfl
      conv_rhs => rw [← take_append_drop start state.pendingSections, filter_append]
      rw [hall]
    have hgone : (state.pendingSections.drop start).filter
          (fun pending => pending.streamId == streamId) =
        state.pendingSections.filter (fun pending => pending.streamId == streamId) := by
      have hnone : (state.pendingSections.take start).filter
          (fun pending => pending.streamId == streamId) = [] :=
        filter_eq_nil_iff.mpr fun pending hmem => by rw [hfront pending hmem]; decide
      conv_rhs => rw [← take_append_drop start state.pendingSections, filter_append]
      rw [hnone, nil_append]
    have hcounts : Tally
        ((state.pendingSections.filter (fun pending => pending.streamId == streamId)).flatMap
          (·.references) ++
        (state.pendingSections.filter (fun pending => !(pending.streamId == streamId))).flatMap
          (·.references)) state.referenceCounts := by
      refine h.counts.congr ?_
      intro k
      rw [← flatMap_append]
      exact ((filter_append_perm _ state.pendingSections).flatMap_right _).count_eq k
    obtain ⟨counts, hdrop, htally⟩ := hcounts.dropAll
    have hrepaired := (h.index.filter hstart).finish
    rw [hkept] at hrepaired
    rw [hgone, hdrop, hkept]
    refine ⟨_, _, rfl, ?_, rfl, rfl⟩
    exact h.withSections rfl le_rfl h.known_le
      (fun pending hmem => mem_of_mem_filter hmem) htally hrepaired

lemma Sound.rollbackLoop {rounds : Nat} {state : QpackEncodeState} (h : state.Sound)
    (hfuel : rounds ≤ state.pendingSections.length) :
    ∃ next, rollbackLoop rounds state = .ok next ∧ next.Sound ∧
      next.table = state.table ∧ next.peerMaxCapacity = state.peerMaxCapacity := by
  induction rounds generalizing state with
  | zero => exact ⟨state, rfl, h, rfl, rfl⟩
  | succ rounds ih =>
    obtain ⟨pending, hpend⟩ : ∃ pending,
        state.pendingSections[state.pendingSections.length - 1]? = some pending :=
      ⟨_, getElem?_eq_getElem (by omega)⟩
    obtain ⟨next, hrel, hsound, herased, htable, -, hpeer⟩ := h.releaseSection hpend
    have hlen : next.pendingSections.length = state.pendingSections.length - 1 := by
      rw [herased, length_eraseIdx_of_lt (by omega)]
    obtain ⟨last, hlast, hdone, htable', hpeer'⟩ := ih hsound (by omega)
    refine ⟨last, ?_, hdone, htable'.trans htable, hpeer'.trans hpeer⟩
    simp [hrel, hlast, QpackEncodeState.rollbackLoop]

lemma Sound.released (hnext : next.Sound) (htable : next.table = state.table)
    (hpeer : next.peerMaxCapacity = state.peerMaxCapacity) : state.Keeps (.ok next) := by
  refine Keeps.ok hnext ?_ ?_
  · rw [htable]
    exact OnlyFree.refl state
  intro hwait hnone
  rw [hpeer] at hnone
  rw [htable]
  exact hwait hnone

lemma Sound.abandonStream (h : state.Sound) (streamId : Nat) :
    state.Keeps (state.abandonStream streamId) := by
  obtain ⟨released, next, hrel, hnext, htable, hpeer⟩ :=
    h.releaseSectionsForStream streamId
  unfold QpackEncodeState.abandonStream
  rw [hrel]
  exact hnext.released htable hpeer

lemma Sound.rollbackPendingSections (h : state.Sound) (originalLen : Nat) :
    state.Keeps (state.rollbackPendingSections originalLen) := by
  obtain ⟨next, hrollback, hnext, htable, hpeer⟩ :=
    @Sound.rollbackLoop (state.pendingSections.length - originalLen) state h (Nat.sub_le _ _)
  unfold QpackEncodeState.rollbackPendingSections
  rw [hrollback]
  exact hnext.released htable hpeer

lemma Sound.applyDecoderInstruction (h : state.Sound) (instruction : DecoderInstruction) :
    state.Keeps (state.applyDecoderInstruction instruction) := by
  unfold QpackEncodeState.applyDecoderInstruction
  cases instruction with
  | insertCountIncrement increment =>
    dsimp only
    by_cases hlarge : maxU64 < state.knownReceivedCount + increment ∨
        state.table.insertCount < state.knownReceivedCount + increment
    · rw [if_pos hlarge]
      exact Keeps.error state (by decide)
    rw [if_neg hlarge]
    refine Keeps.ok ?_ (OnlyFree.refl state) id
    exact h.withSections rfl (Nat.le_add_right _ _) (by
      show state.knownReceivedCount + increment ≤ _
      omega) (fun _ hmem => hmem) h.counts h.index
  | streamCancellation streamId =>
    obtain ⟨released, next, hrel, hnext, htable, hpeer⟩ :=
      h.releaseSectionsForStream streamId
    dsimp only
    rw [hrel]
    dsimp only
    by_cases hnone : released = 0
    · rw [if_pos hnone]
      exact Keeps.error state (by decide)
    · rw [if_neg hnone]
      exact hnext.released htable hpeer
  | sectionAcknowledgment streamId =>
    dsimp only
    cases hidx : state.pendingSectionIndex.get streamId with
    | none => exact Keeps.error state (by decide)
    | some index =>
      obtain ⟨pending, hpend, -⟩ := h.index.getElem? hidx
      obtain ⟨next, hrel, hnext, -, htable, hknown, hpeer⟩ := h.releaseSection hpend
      have hheld := h.sections pending (mem_of_getElem? hpend)
      have hreq : pending.requiredInsertCount ≤ state.knownReceivedCount := by
        rw [hheld.required]
        exact maxReferencedInsertCount_le hheld.known
      dsimp only
      rw [hpend, hrel]
      refine Sound.released (hnext.withSections rfl (Nat.le_max_left _ _) ?_
        (fun _ hmem => hmem) hnext.counts hnext.index) htable hpeer
      exact Nat.max_le.mpr ⟨hnext.known_le, by
        rw [htable]
        exact hreq.trans h.known_le⟩

/-! ### Inserting and encoding -/

section Insertion

variable [StringHash]

variable {state : QpackEncodeState}

lemma Sound.insertField (h : state.Sound) (name value : Bytes) :
    (state.insertField name value).1 ≠ .error .panic ∧ (state.insertField name value).2.Sound ∧
      state.OnlyFree (state.insertField name value).2.table ∧
      (state.Awaiting → (state.insertField name value).2.Awaiting) := by
  have hsame : ∀ result : Except Error (Option Nat), result ≠ .error .panic →
      (result, state).1 ≠ .error .panic ∧ (result, state).2.Sound ∧
        state.OnlyFree (result, state).2.table ∧ (state.Awaiting → (result, state).2.Awaiting) :=
    fun result hres => ⟨hres, h, OnlyFree.refl state, id⟩
  unfold QpackEncodeState.insertField
  cases hsize : dynamicEntrySize name value with
  | none => exact hsame _ (by decide)
  | some entrySize =>
    dsimp only
    by_cases hlarge : state.table.capacity < entrySize
    · rw [if_pos hlarge]
      exact hsame _ (by decide)
    rw [if_neg hlarge]
    by_cases hcan : state.canEvictForInsert entrySize = true
    · rw [if_neg (by simp [hcan])]
      have hent : (DynamicTable.entryFor state.table.insertCount name value).size = entrySize := by
        unfold dynamicEntrySize at hsize
        rw [ite_none_right_eq_some] at hsize
        exact some.inj hsize.2
      have hfree : ∀ entry ∈ state.table.live,
          entry ∈ evict size (state.table.capacity - entrySize) state.table.live ∨
            state.Free entry.absoluteIndex := by
        unfold canEvictForInsert at hcan
        rw [h.table.size_eq] at hcan
        exact canEvictLoop_free h (not_lt.mp hlarge) hcan
      cases hins : state.table.insert name value with
      | mk result table =>
        cases result with
        | error e =>
          have hunchanged : e ≠ .panic ∧ table = state.table := by
            unfold DynamicTable.insert at hins
            rw [hsize] at hins
            dsimp only at hins
            rw [if_neg hlarge] at hins
            split at hins
            · cases hins
              exact ⟨by decide, rfl⟩
            · cases hins
          obtain ⟨hpanic, rfl⟩ := hunchanged
          refine hsame (.error e) ?_
          simp [hpanic]
        | ok absoluteIndex =>
          obtain ⟨hsound, hidx, -, -, hlive, -, hmax, hcount⟩ := h.table.insert hins
          rw [hidx, hent] at hlive
          have honly : state.OnlyFree table := by
            intro entry hmem
            rw [hlive]
            rcases hfree entry hmem with hkept | hgone
            · exact .inl (mem_append_left _ hkept)
            · exact .inr hgone
          refine ⟨fun heq => (by cases heq), ?_, honly,
            fun hwait hnone => hmax.trans (hwait hnone)⟩
          exact h.withTable hsound (by
            show state.table.insertCount ≤ table.insertCount
            omega) honly rfl rfl rfl rfl
    · rw [if_pos (by simp [hcan])]
      exact hsame _ (by decide)

lemma Sound.block_references (h : state.Sound) {fields : List HeaderField} {block : Bytes}
    {references : List Nat}
    (hblock : encodeDynamicBlockKnownReceived state.table fields state.knownReceivedCount =
      .ok (block, references)) :
    references.Nodup ∧ ∀ index ∈ references, index < state.knownReceivedCount ∧
      (state.table.absolute index).isSome = true := by
  unfold encodeDynamicBlockKnownReceived encodeDynamicBlockWithReferenceLimit at hblock
  rw [if_neg (Nat.not_lt_of_le h.known_le)] at hblock
  dsimp only at hblock
  split at hblock
  · cases hblock
  cases hblock
  refine ⟨nodup_references nodup_nil, ?_⟩
  intro index hmem
  rcases mem_references.mp hmem with hnone | ⟨line, hline, href⟩
  · cases hnone
  obtain ⟨found, hfound, -, rfl⟩ := encodeFieldLine_reference.mp href
  obtain ⟨hlt, entry, hent, -⟩ :=
    ((dynamicMatches_sound h.table fields _).2 line hline).2 found hfound
  exact ⟨hlt, isSome_iff_exists.mpr ⟨entry, hent⟩⟩

lemma Sound.encodeFieldSection (h : state.Sound) (streamId : Nat) (fields : List HeaderField) :
    state.encodeFieldSection streamId fields ≠ .error .panic ∧
      ∀ block next, state.encodeFieldSection streamId fields = .ok (block, next) →
        next.Sound ∧ next.table = state.table ∧ next.peerMaxCapacity = state.peerMaxCapacity := by
  unfold QpackEncodeState.encodeFieldSection
  cases hblock : encodeDynamicBlockKnownReceived state.table fields state.knownReceivedCount with
  | error e =>
    refine ⟨?_, fun block next hnext => by cases hnext⟩
    obtain ⟨encoded, -, henc, -⟩ :=
      encodeRequiredInsertCount_ok h.table fields state.knownReceivedCount
    unfold encodeDynamicBlockKnownReceived encodeDynamicBlockWithReferenceLimit at hblock
    simp [Nat.not_lt_of_le h.known_le, henc] at hblock
  | ok written =>
    obtain ⟨block, references⟩ := written
    obtain ⟨hnodup, hheld⟩ := h.block_references hblock
    dsimp only
    by_cases hnone : references = []
    · rw [if_pos hnone]
      refine ⟨fun heq => (by cases heq), ?_⟩
      intro block' next hnext
      cases hnext
      exact ⟨h, rfl, rfl⟩
    rw [if_neg hnone]
    by_cases hmany : 2 ^ 32 ≤ references.length
    · rw [if_pos hmany]
      exact ⟨by decide, fun block' next hnext => by cases hnext⟩
    rw [if_neg hmany]
    refine ⟨fun heq => (by cases heq), ?_⟩
    intro block' next hnext
    cases hnext
    refine ⟨⟨h.table, h.known_le, ?_, ?_, ?_⟩, rfl, rfl⟩
    · intro pending hmem
      rcases mem_append.mp hmem with hold | hnew
      · have hpend := h.sections pending hold
        exact ⟨hpend.nodup, hpend.known, hpend.present, hpend.required⟩
      rw [mem_singleton.mp hnew]
      exact ⟨hnodup, fun index hidx => (hheld index hidx).1,
        fun index hidx => (hheld index hidx).2, rfl⟩
    · refine (h.counts.bumpAll references).congr ?_
      simp [Nat.add_comm]
    exact h.index.append { streamId := streamId
                           requiredInsertCount := maxReferencedInsertCount references
                           references := references }

end Insertion

end QpackEncodeState

end Netz.Http.Qpack
