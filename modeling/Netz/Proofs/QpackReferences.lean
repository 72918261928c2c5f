/-
References of pending sections over whole runs of the encoder.

Every call keeps the state sound, and only free entries leave the table in it, so this holds of
every state and every step of every run.
-/
import Netz.Proofs.QpackEncoder

namespace Netz.Http.Qpack.QpackEncodeState

open Lib QpackEncodeState

/-- Capacities are `usize`. -/
def Call.Sized : Call → Prop
  | .configurePeerCapacity capacity => capacity ≤ maxU64
  | _ => True

/-- A fresh encoder, with the peer's settings or before them. -/
def Fresh (state : QpackEncodeState) : Prop :=
  (∃ peerMaxCapacity maxStreamBuffer, peerMaxCapacity ≤ maxU64 ∧
    state = init peerMaxCapacity maxStreamBuffer) ∨
  ∃ maxStreamBuffer, state = initAwaitingPeerSettings maxStreamBuffer

/-- The references, the counts and the index of the pending sections. -/
structure ReferencesSafe (state : QpackEncodeState) : Prop where
  present : ∀ pending ∈ state.pendingSections, ∀ index ∈ pending.references,
    (state.table.absolute index).isSome = true ∧ index < state.knownReceivedCount
  known_le : state.knownReceivedCount ≤ state.table.insertCount
  counts : ∀ index, state.referenceCounts.get index =
    let sections := state.pendingSections.countP fun pending => decide (index ∈ pending.references)
    if sections = 0 then none else some sections
  first : ∀ streamId, state.pendingSectionIndex.get streamId =
    state.pendingSections.findIdx? fun pending => pending.streamId == streamId

variable {state : QpackEncodeState}

lemma Sound.referencesSafe (h : state.Sound) : state.ReferencesSafe where
  present := fun pending hmem index hidx =>
    ⟨(h.sections pending hmem).present index hidx, (h.sections pending hmem).known index hidx⟩
  known_le := h.known_le
  counts := by
    intro index
    rw [h.counts index, count_references (fun pending hmem => (h.sections pending hmem).nodup)]
  first := h.index

lemma Fresh.sound (h : state.Fresh) : state.Sound ∧ state.Awaiting := by
  rcases h with ⟨peerMaxCapacity, maxStreamBuffer, hmax, rfl⟩ | ⟨maxStreamBuffer, rfl⟩
  · exact ⟨sound_init hmax maxStreamBuffer, fun hnone => by cases hnone⟩
  · exact ⟨sound_awaiting maxStreamBuffer, fun _ => rfl⟩

/-- An entry that leaves the table in a step is one that is received and not referred to. -/
def EvictsFree (state next : QpackEncodeState) : Prop :=
  ∀ entry ∈ state.table.live, entry ∉ next.table.live → state.Free entry.absoluteIndex

lemma Keeps.settle (h : state.Sound)
    {result : Except Error QpackEncodeState} (hkeeps : state.Keeps result) :
    (state.settle result).1 ≠ .error .panic ∧ (state.settle result).2.Sound ∧
      state.OnlyFree (state.settle result).2.table ∧
      (state.Awaiting → (state.settle result).2.Awaiting) := by
  obtain ⟨hpanic, hok⟩ := hkeeps
  unfold QpackEncodeState.settle
  cases result with
  | error e =>
    refine ⟨?_, h, OnlyFree.refl state, id⟩
    intro heq
    cases heq
    exact hpanic rfl
  | ok next =>
    obtain ⟨hsound, hfree, hwait⟩ := hok next rfl
    exact ⟨fun heq => (by cases heq), hsound, hfree, hwait⟩

section Runs

variable [StringHash]

/-- **One call keeps the state sound, and only free entries leave in it.** -/
theorem Sound.call {state : QpackEncodeState} (h : state.Sound) (hawaiting : state.Awaiting)
    {call : Call} (hsized : call.Sized) :
    (state.call call).1 ≠ .error .panic ∧ (state.call call).2.Sound ∧
      state.OnlyFree (state.call call).2.table ∧
      (state.Awaiting → (state.call call).2.Awaiting) := by
  cases call with
  | configurePeerCapacity capacity => exact (h.configurePeerCapacity hawaiting hsized).settle h
  | setCapacity capacity => exact (h.setCapacity capacity).settle h
  | applyDecoderInstruction instruction => exact (h.applyDecoderInstruction instruction).settle h
  | abandonStream streamId => exact (h.abandonStream streamId).settle h
  | rollbackPendingSections originalLen => exact (h.rollbackPendingSections originalLen).settle h
  | insertField name value =>
    obtain ⟨hpanic, hrest⟩ := h.insertField name value
    refine ⟨?_, hrest⟩
    unfold QpackEncodeState.call
    dsimp only
    cases hres : (state.insertField name value).1 with
    | error e =>
      rw [hres] at hpanic
      intro heq
      cases heq
      exact hpanic rfl
    | ok index =>
      intro heq
      cases heq
  | encodeFieldSection streamId fields =>
    obtain ⟨hpanic, hok⟩ := h.encodeFieldSection streamId fields
    unfold QpackEncodeState.call
    dsimp only
    cases hres : state.encodeFieldSection streamId fields with
    | error e =>
      refine ⟨?_, h, OnlyFree.refl state, id⟩
      intro heq
      cases heq
      exact hpanic hres
    | ok written =>
      obtain ⟨block, next⟩ := written
      obtain ⟨hsound, htable, hpeer⟩ := hok block next hres
      refine ⟨fun heq => (by cases heq), hsound, ?_, ?_⟩
      · dsimp only
        rw [htable]
        exact OnlyFree.refl state
      intro hawaiting' hnone
      rw [hpeer] at hnone
      rw [htable]
      exact hawaiting' hnone

/-- **In every state of every run what pending sections refer to is in the table, the counts and
the index are those of the pending sections, and no step evicts an entry that is not acknowledged
or is referred to.** -/
theorem references_safe {start : QpackEncodeState} (hstart : start.Fresh) (calls : List Call)
    (hsized : ∀ call ∈ calls, call.Sized) :
    (exec call start calls).ReferencesSafe ∧
      ∀ e ∈ trace call start calls,
        e.output ≠ .error .panic ∧ e.pre.EvictsFree e.post := by
  have hrun := trace_induction call (fun _ call => call.Sized)
    (fun history state => (state.Sound ∧ state.Awaiting) ∧
      ∀ e ∈ history, e.output ≠ .error .panic ∧ e.pre.EvictsFree e.post)
    ⟨hstart.sound, fun e he => by cases he⟩ ?_ calls
    (fun e he => hsized e.input (input_mem he))
  · exact ⟨hrun.1.1.referencesSafe, hrun.2⟩
  rintro history state call ⟨⟨hsound, hawaiting⟩, hhistory⟩ hcall
  obtain ⟨hpanic, hnext, hfree, hawaiting'⟩ := hsound.call hawaiting hcall
  refine ⟨⟨hnext, hawaiting' hawaiting⟩, ?_⟩
  intro e he
  rcases List.mem_append.mp he with hold | hlast
  · exact hhistory e hold
  rw [List.mem_singleton.mp hlast]
  refine ⟨hpanic, ?_⟩
  intro entry hmem hgone
  exact (hfree entry hmem).resolve_left hgone

end Runs

/-- A run of an encoder with room for one entry: a field, its acknowledgment, a section that
refers to it, and a field that has no room. -/
def oneEntryRun : List Call :=
  [.setCapacity 64, .insertField (ascii "x-trace") (ascii "on"),
    .applyDecoderInstruction (.insertCountIncrement 1),
    .encodeFieldSection 0 [{ name := ascii "x-trace", value := ascii "on" }],
    .insertField (ascii "x-other") (ascii "off")]

theorem references_safe_one_entry :
    (exec (@call lengthHash) (init 64 100) oneEntryRun).ReferencesSafe ∧
      ∀ e ∈ trace (@call lengthHash) (init 64 100) oneEntryRun,
        e.output ≠ .error .panic ∧ e.pre.EvictsFree e.post :=
  @references_safe lengthHash (init 64 100) (.inl ⟨64, 100, by decide, rfl⟩) oneEntryRun (by
    simp [oneEntryRun, Call.Sized])

end Netz.Http.Qpack.QpackEncodeState
