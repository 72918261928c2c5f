/-
Runs of the Will scheduler.

`resolutions` reads off the reply of a call which Wills it canceled or handed out.  Over a run
the Wills that are pending and those that were resolved are, one by one, those for which a
handle was returned, so that none is resolved twice and none is lost.  The invariant is
restated without the heap's vocabulary in `WellFormed`.
-/
import Netz.Proofs.WillPolls

namespace Netz.Mqtt.Will

open Lib Netz.Mqtt.IndexedMinHeap List

inductive Resolution where
  | canceled
  | claimed

namespace Scheduler

/-- The slots of the Wills that a call reports canceled or handed out. -/
def resolvedSlots (s : Scheduler) : Op → Except Error Reply → List (Nat × Resolution)
  | .acceptConnect connect _ _, .ok (.accepted result) =>
    if result.previous = .canceled then
      (s.clientIndex.get connect.clientId).toList.map fun index => (index, .canceled)
    else []
  | .onReconnect clientId _ _, .ok (.reconnected result) =>
    if result = .canceled then
      (s.clientIndex.get clientId).toList.map fun index => (index, .canceled)
    else []
  | .close handle _ _, .ok (.closed result) =>
    if result = .canceled then [(handle.index, .canceled)] else []
  | .closeDisconnect handle _ _, .ok (.closed result) =>
    if result = .canceled then [(handle.index, .canceled)] else []
  | .pollDue _ _, .ok (.polled handles) => handles.map fun handle => (handle.index, .claimed)
  | .pollOneDue _, .ok (.polledOne handle) =>
    handle.toList.map fun handle => (handle.index, .claimed)
  | _, _ => []

/-- The Wills that a call accepts, by the handles it returns for them. -/
def installed : Except Error Reply → List Handle
  | .ok (.installed handle) => [handle]
  | .ok (.accepted result) => result.current.toList
  | _ => []

/-- The Wills that a call resolves, by serial. -/
def resolutions (s : Scheduler) (op : Op) (reply : Except Error Reply) : List (Nat × Resolution) :=
  (s.resolvedSlots op reply).filterMap fun slot =>
    (s.serialAt slot.1).map fun serial => (serial, slot.2)

structure WellFormed (s : Scheduler) : Prop where
  heap_ordered : ∀ i a b, 0 < i → (s.heap[i]?.bind (entryAt s.entries)) = some a →
    (s.heap[(i - 1) / 2]?.bind (entryAt s.entries)) = some b → a.earlier b = false
  heap_live : ∀ i ∈ s.heap, ∃ entry, entryAt s.entries i = some entry
  heap_position : ∀ i entry, entryAt s.entries i = some entry →
    ∀ k, entry.heapIndex = some k ↔ s.heap[k]? = some i
  heap_scheduled : ∀ i entry, entryAt s.entries i = some entry →
    (i ∈ s.heap ↔ entry.state = .scheduled)
  free_nodup : s.freeIndices.Nodup
  free_vacant : ∀ i, i ∈ s.freeIndices ↔ s.entries[i]? = some none
  client_live : ∀ clientId i, s.clientIndex.get clientId = some i →
    ∃ entry, entryAt s.entries i = some entry ∧ entry.clientId = clientId
  count : s.countValue = s.entries.reduceOption.length
  bytes : s.totalBytes = (s.entries.reduceOption.map (·.allocationBytes)).sum

variable {s : Scheduler}

lemma Entry.not_earlier {a b : Entry} (h : b.rank ≤ a.rank) : a.earlier b = false := by
  rw [← Bool.not_eq_true, Entry.earlier_iff]
  exact not_lt.mpr h

lemma slots_reduceOption (entries : Entries) :
    (slots entries).reduceOption = entries.reduceOption.map Entry.unplaced :=
  reduceOption_map

lemma Inv.wellFormed (h : Inv s) : WellFormed s where
  heap_ordered := by
    intro i a b hi ha hb
    obtain ⟨x, hx, hxa⟩ := Option.bind_eq_some_iff.mp ha
    obtain ⟨y, hy, hyb⟩ := Option.bind_eq_some_iff.mp hb
    have hle := h.heaped.ordered i hi (lt_of_getElem? hx)
    change (entryAt (slots s.entries) (s.heap.getD ((i - 1) / 2) 0)).elim _ _ ≤
      (entryAt (slots s.entries) (s.heap.getD i 0)).elim _ _ at hle
    rw [getD_eq_getElem?_getD, getD_eq_getElem?_getD, hx, hy, Option.getD_some,
      Option.getD_some, slots_of_entryAt hxa, slots_of_entryAt hyb] at hle
    exact Entry.not_earlier hle
  heap_live i hi := live_slots.mp (h.heaped.live i hi)
  heap_position := by
    intro i entry he k
    have hiff := h.heaped.position_iff i (live_slots.mpr ⟨entry, he⟩) k
    change (entryAt s.entries i).bind _ = some k ↔ _ at hiff
    rw [he] at hiff
    exact hiff
  heap_scheduled i entry he := h.resident i entry.unplaced (slots_of_entryAt he)
  free_nodup := h.free_nodup
  free_vacant i := (h.free_iff i).trans getElem?_slots_eq_none
  client_live := by
    intro clientId i hget
    obtain ⟨entry, he, hid⟩ := h.indexed clientId i hget
    obtain ⟨placed, hplaced, rfl⟩ := entryAt_of_slots he
    exact ⟨placed, hplaced, hid⟩
  count := by rw [h.count_eq, slots_reduceOption, length_map]
  bytes := by
    rw [h.bytes_eq, slots_reduceOption, map_map]
    rfl

lemma inv_init (options : Options) : Inv { options := options } where
  heaped := by
    refine ⟨⟨fun e he => (by cases he), ?_⟩, ?_⟩
    · rintro e ⟨entry, he⟩
      cases he
    · intro i _ hi
      exact absurd hi (Nat.not_lt_zero i)
  resident i entry he := by cases he
  free_nodup := nodup_nil
  free_iff i := ⟨fun hi => (by cases hi), fun hi => (by cases hi)⟩
  indexed clientId i hget := by cases hget
  count_eq := rfl
  bytes_eq := rfl
  heapRoom := le_rfl
  freeRoom := le_rfl

/-! ### Steps -/

lemma map_resolutions (s : Scheduler) (op : Op) (reply : Except Error Reply) :
    (s.resolutions op reply).map (·.1) =
      (s.resolvedSlots op reply).filterMap fun slot => s.serialAt slot.1 := by
  unfold resolutions
  rw [map_filterMap]
  congr 1
  funext slot
  rw [Option.map_map]
  exact Option.map_id'

lemma filterMap_singleton (s : Scheduler) (slot : Nat × Resolution) :
    [slot].filterMap (fun slot => s.serialAt slot.1) = (s.serialAt slot.1).toList := by
  cases hs : s.serialAt slot.1 <;> simp [hs]

lemma canceledOf_eq (s : Scheduler) (clientId : Bytes) (result : CloseResult) :
    s.canceledOf clientId result = (if result = .canceled then
        (s.clientIndex.get clientId).toList.map fun index => (index, Resolution.canceled)
      else []).filterMap fun slot => s.serialAt slot.1 := by
  unfold canceledOf
  by_cases hc : result = .canceled
  · rw [if_pos hc, if_pos hc]
    cases s.clientIndex.get clientId with
    | none => rfl
    | some index => exact (filterMap_singleton s (index, .canceled)).symm
  · simp [hc]

lemma canceledAt_eq (s : Scheduler) (index : Nat) (result : CloseResult) :
    s.canceledAt index result =
      (if result = .canceled then [(index, Resolution.canceled)] else []).filterMap fun slot =>
        s.serialAt slot.1 := by
  unfold canceledAt
  by_cases hc : result = .canceled
  · rw [if_pos hc, if_pos hc, filterMap_singleton]
  · simp [hc]

/-- **No call panics, and what it resolves it reports.** -/
theorem call_spec (h : Inv s) (op : Op) :
    Sure (fun r => Steps s r.2 (installed (.ok r.1)) ((s.resolutions op (.ok r.1)).map (·.1)))
      (s.call op) := by
  cases op with
  | set clientId will sessionExpiryInterval memory =>
    exact Delivers.map (set_spec h clientId will sessionExpiryInterval memory)
  | acceptConnect connect nowNs memory =>
    refine Delivers.map ((acceptConnect_spec h connect nowNs memory).mono ?_)
    intro r hr
    rw [map_resolutions]
    exact (canceledOf_eq s connect.clientId r.1.previous) ▸ hr
  | onReconnect clientId cleanStart nowNs =>
    refine Delivers.map ((onReconnect_spec h ⟨.v5, cleanStart, clientId, [], none⟩ nowNs).mono ?_)
    intro r hr
    rw [map_resolutions]
    exact (canceledOf_eq s clientId r.1) ▸ hr.1.steps h
  | close handle reason nowNs =>
    refine Delivers.map ((close_spec h handle reason nowNs).mono ?_)
    intro r hr
    rw [map_resolutions]
    exact (canceledAt_eq s handle.index r.1) ▸ hr
  | closeDisconnect handle packet nowNs =>
    refine Delivers.map ((closeDisconnect_spec h handle packet nowNs).mono ?_)
    intro r hr
    rw [map_resolutions]
    exact (canceledAt_eq s handle.index r.1) ▸ hr
  | pollDue nowNs outLen =>
    have hspec := pollDue_spec h nowNs outLen
    refine Delivers.map ?_
    by_cases hlt : outLen < s.dueCount nowNs
    · rw [if_pos hlt] at hspec
      rw [hspec]
      exact Delivers.error (by simp)
    rw [if_neg hlt] at hspec
    obtain ⟨handles, s', heq, hpolls⟩ := hspec
    rw [heq]
    show Steps s s' [] ((s.resolutions (.pollDue nowNs outLen) (.ok (.polled handles))).map _)
    rw [map_resolutions]
    show Steps s s' [] ((handles.map _).filterMap _)
    rw [filterMap_map]
    exact hpolls.steps
  | pollOneDue nowNs =>
    refine Delivers.map ?_
    rcases pollOneDue_spec h nowNs with ⟨heq, -⟩ | ⟨handle, s', heq, hpolls⟩
    · rw [heq]
      exact Steps.refl h
    rw [heq]
    show Steps s s' [] ((s.resolutions (.pollOneDue nowNs) (.ok (.polledOne (some handle)))).map _)
    rw [map_resolutions]
    show Steps s s' [] ([(handle.index, Resolution.claimed)].filterMap _)
    exact hpolls.steps
  | releaseDue handle => exact Delivers.map (releaseDue_spec h handle)

lemma step_spec (h : Inv s) (op : Op) :
    (s.step op).1 ≠ .error .panic ∧
      Steps s (s.step op).2 (installed (s.step op).1)
        ((s.resolutions op (s.step op).1).map (·.1)) := by
  have hcall := call_spec h op
  unfold step
  cases hc : s.call op with
  | error e =>
    refine ⟨fun he => hcall.failure hc (Except.error.inj he), ?_⟩
    rw [map_resolutions]
    have hnone : s.resolvedSlots op (.error e) = [] := by cases op <;> rfl
    rw [hnone]
    exact Steps.refl h
  | ok r => exact ⟨by simp, hcall.result hc⟩

/-! ### Polls in a run -/

lemma isDue_iff {nowNs : Int} {handle : Handle} :
    s.IsDue nowNs handle ↔ ∃ entry, entryAt s.entries handle.index = some entry ∧
      entry.generation = handle.generation ∧ entry.dueBy nowNs = true := by
  constructor
  · rintro ⟨entry, he, hgen, hdue⟩
    obtain ⟨placed, hplaced, rfl⟩ := entryAt_of_slots he
    exact ⟨placed, hplaced, hgen, hdue⟩
  · rintro ⟨entry, he, hgen, hdue⟩
    exact ⟨_, slots_of_entryAt he, hgen, hdue⟩

/-- A poll of everything that is due: refused without a change when the buffer is too small, and
otherwise answered with exactly the scheduled entries whose deadline has passed, earliest
first. -/
def PollsExactly (e : Event Scheduler Op (Except Error Reply)) : Prop :=
  ∀ nowNs outLen, e.input = .pollDue nowNs outLen →
    if outLen < e.pre.dueCount nowNs then e.output = .error .dueBufferTooSmall ∧ e.post = e.pre
    else ∃ handles, e.output = .ok (.polled handles) ∧ handles.Nodup ∧
      (∀ handle, handle ∈ handles ↔ ∃ entry, entryAt e.pre.entries handle.index = some entry ∧
        entry.generation = handle.generation ∧ entry.dueBy nowNs = true) ∧
      handles.Pairwise fun a b => ∀ x y, entryAt e.pre.entries a.index = some x →
        entryAt e.pre.entries b.index = some y → y.earlier x = false

lemma step_pollsExactly (h : Inv s) (op : Op) : PollsExactly (event step s op) := by
  rintro nowNs outLen rfl
  have hspec := pollDue_spec h nowNs outLen
  by_cases hlt : outLen < s.dueCount nowNs
  · rw [if_pos hlt] at hspec
    show if outLen < s.dueCount nowNs then _ else _
    rw [if_pos hlt]
    have hcall : s.call (.pollDue nowNs outLen) = .error .dueBufferTooSmall := by
      show (s.pollDue nowNs outLen).map _ = _
      rw [hspec]
      rfl
    have hstep : s.step (.pollDue nowNs outLen) = (.error .dueBufferTooSmall, s) := by
      unfold step
      rw [hcall]
    exact ⟨congrArg Prod.fst hstep, congrArg Prod.snd hstep⟩
  rw [if_neg hlt] at hspec
  show if outLen < s.dueCount nowNs then _ else _
  rw [if_neg hlt]
  obtain ⟨handles, s', heq, hpolls⟩ := hspec
  have hcall : s.call (.pollDue nowNs outLen) = .ok (.polled handles, s') := by
    show (s.pollDue nowNs outLen).map _ = _
    rw [heq]
    rfl
  have hstep : s.step (.pollDue nowNs outLen) = (.ok (.polled handles), s') := by
    unfold step
    rw [hcall]
  refine ⟨handles, congrArg Prod.fst hstep, hpolls.nodup,
    fun handle => (hpolls.mem_iff handle).trans isDue_iff, hpolls.sorted.imp ?_⟩
  intro a b hle x y hx hy
  change entryAt s.entries a.index = some x at hx
  change entryAt s.entries b.index = some y at hy
  rw [rankAt_eq (slots_of_entryAt hx), rankAt_eq (slots_of_entryAt hy)] at hle
  exact Entry.not_earlier hle

/-- **The invariant of the scheduler, and the single resolution of every Will.**  After any run
the scheduler is well formed; no call of the run panicked; the Wills that are pending and the
ones that were canceled or handed out are together the ones for which a handle was returned,
each once; and every poll was exact. -/
theorem wills_resolve_once (options : Options) (ops : List Op) :
    WellFormed (exec step { options := options } ops) ∧
      (∀ e ∈ trace step { options := options } ops, e.output ≠ .error .panic) ∧
      (pendingSerials (exec step { options := options } ops).entries ++
        ((trace step { options := options } ops).flatMap fun e =>
          resolutions e.pre e.input e.output).map (·.1)).Perm
        (range ((trace step { options := options } ops).flatMap fun e =>
          installed e.output).length) ∧
      ∀ e ∈ trace step { options := options } ops, PollsExactly e := by
  have hpre := trace_pre step Inv (inv_init options) (fun s op h => (step_spec h op).2.inv) ops
  have hrun := trace_induction step (fun _ _ => True)
    (fun history s => Inv s ∧ s.accepted = (history.flatMap fun e => installed e.output).length ∧
      (pendingSerials s.entries ++
        (history.flatMap fun e => resolutions e.pre e.input e.output).map (·.1)).Perm
          (range s.accepted)) ⟨inv_init options, rfl, Perm.refl []⟩ (by
      rintro history s op ⟨hinv, hcount, hperm⟩ -
      obtain ⟨-, hsteps⟩ := step_spec hinv op
      refine ⟨hsteps.inv, ?_, ?_⟩
      · rw [hsteps.accepted_eq, hcount, flatMap_append, length_append, flatMap_singleton]
        rfl
      rw [flatMap_append, map_append, flatMap_singleton, hsteps.accepted_eq, range_eq_range',
        ← range'_append_1, Nat.zero_add, ← range_eq_range']
      refine Perm.trans ?_ (hperm.append_right _)
      refine (perm_append_comm.append_left _).trans ?_
      rw [← append_assoc]
      refine (hsteps.accounts.append_right _).trans ?_
      rw [append_assoc, append_assoc]
      exact perm_append_comm.append_left _) ops (fun _ _ => trivial)
  refine ⟨hrun.1.wellFormed, ?_, hrun.2.1 ▸ hrun.2.2, ?_⟩
  · intro e he
    obtain ⟨hinv, heq⟩ := hpre e he
    rw [heq]
    exact (step_spec hinv e.input).1
  intro e he
  obtain ⟨hinv, heq⟩ := hpre e he
  rw [heq]
  exact step_pollsExactly hinv e.input

end Scheduler

end Netz.Mqtt.Will
