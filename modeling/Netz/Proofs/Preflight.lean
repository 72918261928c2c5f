/-
The preflight of a stream frame shadows the stream it stands for.

`byteAt` is the one view of a stream both sides share: which byte stands at an offset, if
any has arrived.  A `RecvState` reads it off its storage; the preflight reads the storage
it borrowed and then the frames of the packet that came before.  As long as the two views
agree, a frame that the preflight accepts is accepted by the stream, brings the same number
of new offsets, and leaves views that agree again.
-/
import Netz.Proofs.Streams

namespace Netz.Quic

open Lib List Option Finset

namespace RecvState

/-- The byte that has arrived at an offset of the retained part. -/
def byteAt (s : RecvState) (absolute : Nat) : Option UInt8 :=
  if s.received.getD (absolute - s.storageOffset) false then
    some (s.buffer.getD (absolute - s.storageOffset) 0)
  else none

/-- The byte a frame carries for an offset it spans. -/
def frameByte (frame : StreamFrame) (absolute : Nat) : UInt8 :=
  frame.data.getD (absolute - frame.offset) 0

/-- Where a stream already has a byte, the frame repeats it. -/
def Agrees (s : RecvState) (frame : StreamFrame) : Prop :=
  ∀ i, max frame.offset s.storageOffset ≤ i → i < frame.offset + frame.data.length →
    ∀ b, s.byteAt i = some b → b = frameByte frame i

variable {A : Finset Nat} {s : RecvState} {i n : Nat} {frame : StreamFrame} {α : Type}

lemma byteAt_isSome (h : Tracks A s) (hi : s.storageOffset ≤ i) : s.byteAt i ≠ none ↔ i ∈ A := by
  have hbit := h.bits (i - s.storageOffset)
  rw [show s.storageOffset + (i - s.storageOffset) = i by omega] at hbit
  unfold byteAt
  rw [← hbit, ← getD_received]
  by_cases hr : s.received.getD (i - s.storageOffset) false = true
  · simp
  · simp

/-! ### A frame that agrees is accepted -/

lemma scanOverlap_of_agree (s : RecvState) (data : Bytes) (relativeOffset : Nat) :
    ∀ (remaining relative newly : Nat),
      (∀ i, relative ≤ i → i < relative + remaining → s.received.getD i false = true →
        s.buffer.getD i 0 = data.getD (i - relativeOffset) 0) →
      ∃ n, s.scanOverlap data relativeOffset remaining relative newly = some n := by
  intro remaining
  induction remaining with
  | zero => intro relative newly _; exact ⟨newly, rfl⟩
  | succ k ih =>
    intro relative newly hagree
    have hrest := fun newly => ih (relative + 1) newly
      (fun i h₁ h₂ => hagree i (by omega) (by omega))
    unfold scanOverlap
    by_cases hbit : s.received.getD relative false = true
    · have heq := hagree relative le_rfl (by omega) hbit
      rw [if_pos hbit, if_neg (not_not.mpr heq)]
      exact hrest newly
    · rw [if_neg hbit]
      exact hrest (newly + 1)

lemma retained_getD (hlo : frame.offset - s.storageOffset ≤ i) :
    (s.retained frame).getD (i - (frame.offset - s.storageOffset)) 0
      = frameByte frame (s.storageOffset + i) := by
  unfold retained frameByte
  rw [getD_eq_getElem?_getD, getElem?_drop]
  congr 2
  omega

lemma agree_relative (hagree : Agrees s frame) (hlo : frame.offset - s.storageOffset ≤ i)
    (hhi : i < frame.offset + frame.data.length - s.storageOffset)
    (hbit : s.received.getD i false = true) :
    s.buffer.getD i 0 = (s.retained frame).getD (i - (frame.offset - s.storageOffset)) 0 := by
  rw [retained_getD hlo]
  refine hagree (s.storageOffset + i) (by omega) (by omega) _ ?_
  unfold byteAt
  rw [show s.storageOffset + i - s.storageOffset = i by omega, if_pos hbit]

lemma newlyReceived_of_agree (hagree : Agrees s frame)
    (hpast : s.storageOffset < frame.offset + frame.data.length) :
    ∃ n, s.newlyReceived (s.retained frame) (frame.offset - s.storageOffset)
      (frame.offset + frame.data.length - s.storageOffset) = some n := by
  unfold newlyReceived
  by_cases hpastAll : s.received.length ≤ frame.offset - s.storageOffset
  · exact ⟨_, by rw [if_pos hpastAll]⟩
  rw [if_neg hpastAll]
  obtain ⟨n, hn⟩ := scanOverlap_of_agree s (s.retained frame) (frame.offset - s.storageOffset)
    (min (frame.offset + frame.data.length - s.storageOffset) s.received.length
      - (frame.offset - s.storageOffset))
    (frame.offset - s.storageOffset) 0
    (fun i h₁ h₂ hbit => agree_relative hagree h₁ (by omega) hbit)
  simp [hn]

/-- The fast path compares the stored slice with the data. -/
theorem slice_eq_of_agree (h : Tracks A s) (hagree : Agrees s frame)
    (hpast : s.storageOffset < frame.offset + frame.data.length)
    (hknown : frame.offset + frame.data.length - s.storageOffset ≤ s.received.length ∧
      frame.offset + frame.data.length ≤ s.contiguousEnd) :
    slice s.buffer (frame.offset - s.storageOffset)
      (frame.offset + frame.data.length - s.storageOffset) = s.retained frame := by
  have hlen := length_retained hpast
  have hsame := h.sameLength
  apply ext_getElem?
  intro i
  rw [getElem?_slice]
  by_cases hi : frame.offset - s.storageOffset + i
      < frame.offset + frame.data.length - s.storageOffset
  · rw [if_pos hi]
    have hmem : s.storageOffset + (frame.offset - s.storageOffset + i) ∈ A :=
      h.prefixIn _ (by omega)
    have hbit := getD_received.mpr ((h.bits _).mpr hmem)
    have heq := agree_relative hagree (Nat.le_add_right _ _) hi hbit
    rw [show frame.offset - s.storageOffset + i - (frame.offset - s.storageOffset) = i by omega] at heq
    rw [getD_eq_getElem?_getD, getD_eq_getElem?_getD] at heq
    rw [getElem?_eq_getElem (by omega), getElem?_eq_getElem (by omega)] at heq ⊢
    simpa using heq
  · rw [if_neg hi, getElem?_eq_none (by omega)]

/-- **A frame that agrees with the stream and its final size is accepted.** -/
theorem insertTracked_of_agree (h : Tracks A s) (hid : frame.streamId = s.streamId)
    (hfits : frame.offset + frame.data.length ≤ maxU64)
    (hfinal : exceedsFinalSize s.finalSize (frame.offset + frame.data.length) frame.fin = false)
    (hfin : frame.fin = true → s.highestReceivedEnd ≤ frame.offset + frame.data.length)
    (hroom : s.storageOffset < frame.offset + frame.data.length →
      frame.offset + frame.data.length - s.storageOffset ≤ s.maxBuffered)
    (hagree : Agrees s frame) : ∃ n s', s.insertTracked frame = (.ok n, s') := by
  have hfinNot : ¬ (frame.fin = true ∧ frame.offset + frame.data.length < s.highestReceivedEnd) := by
    intro hc
    have := hfin hc.1
    omega
  have hknownOk : ∃ n s', s.acceptKnown (frame.offset + frame.data.length) frame.fin = (.ok n, s') := by
    simp [hfinNot, acceptKnown]
  unfold insertTracked
  rw [if_neg (by simp [hid]), checkedAdd_eq_some.mpr ⟨rfl, hfits⟩]
  simp only
  rw [if_neg (by simp [hfinal])]
  by_cases hold : frame.offset + frame.data.length ≤ s.storageOffset
  · simp [hold, hknownOk]
  rw [if_neg hold]
  have hpast : s.storageOffset < frame.offset + frame.data.length := by omega
  have hlen := length_retained hpast
  have hskip : max frame.offset s.storageOffset - frame.offset = s.storageOffset - frame.offset := by
    omega
  have hrel : max frame.offset s.storageOffset - s.storageOffset
      = frame.offset - s.storageOffset := by omega
  have hdata : frame.data.drop (s.storageOffset - frame.offset) = s.retained frame := rfl
  unfold insertRetained
  simp only [hskip, hrel, hdata]
  rw [checkedAdd_eq_some.mpr ⟨hlen.symm, by omega⟩]
  simp only
  rw [if_neg (by have := hroom hpast; omega)]
  by_cases hknown : frame.offset + frame.data.length - s.storageOffset ≤ s.received.length ∧
      frame.offset + frame.data.length ≤ s.contiguousEnd
  · simp [hknown, slice_eq_of_agree h hagree hpast hknown, hknownOk]
  rw [if_neg hknown]
  obtain ⟨n, hn⟩ := newlyReceived_of_agree hagree hpast
  simp [hn, hfinNot]

/-! ### What is there afterwards -/

lemma getD_overwrite {l : List α} {offset : Nat} {data : List α} {fill : α}
    (h : offset + data.length ≤ l.length) (i : Nat) :
    (overwrite l offset data).getD i fill
      = if offset ≤ i ∧ i < offset + data.length then data.getD (i - offset) fill
        else l.getD i fill := by
  rw [getD_eq_getElem?_getD, getElem?_overwrite h]
  by_cases hin : offset ≤ i ∧ i < offset + data.length
  · rw [if_pos hin, if_pos hin, getD_eq_getElem?_getD]
  · rw [if_neg hin, if_neg hin, getD_eq_getElem?_getD]

lemma getD_resize (l : List α) (len : Nat) (fill : α) (i : Nat) :
    (resize l len fill).getD i fill = l.getD i fill := by
  rw [getD_eq_getElem?_getD, getD_eq_getElem?_getD, getElem?_resize]
  by_cases hlt : i < l.length
  · rw [if_pos hlt]
  rw [if_neg hlt, getElem?_eq_none (not_lt.mp hlt)]
  by_cases hlen : i < len
  · simp [hlen]
  · rw [if_neg hlen]

/-- Storing a frame puts its bytes at the offsets it spans and leaves the others. -/
theorem stored_byteAt (hpast : s.storageOffset < frame.offset + frame.data.length)
    (hi : s.storageOffset ≤ i) :
    (s.stored frame n).byteAt i
      = if frame.offset ≤ i ∧ i < frame.offset + frame.data.length then some (frameByte frame i)
        else s.byteAt i := by
  have hlen := length_retained hpast
  have hroomBits : frame.offset - s.storageOffset
      + (replicate (s.retained frame).length true).length
      ≤ (resize s.received (frame.offset + frame.data.length - s.storageOffset) false).length := by
    rw [length_replicate, length_resize]
    omega
  have hroomBytes : frame.offset - s.storageOffset + (s.retained frame).length
      ≤ (resize s.buffer (frame.offset + frame.data.length - s.storageOffset) 0).length := by
    rw [length_resize]
    omega
  have hbits : (s.stored frame n).received.getD (i - s.storageOffset) false
      = if frame.offset - s.storageOffset ≤ i - s.storageOffset ∧
          i - s.storageOffset < frame.offset - s.storageOffset + (s.retained frame).length then true
        else s.received.getD (i - s.storageOffset) false := by
    show (overwrite (resize s.received _ false) _
      (replicate (s.retained frame).length true)).getD _ false = _
    rw [getD_overwrite hroomBits, length_replicate, getD_resize]
    by_cases hin : frame.offset - s.storageOffset ≤ i - s.storageOffset ∧
        i - s.storageOffset < frame.offset - s.storageOffset + (s.retained frame).length
    · rw [if_pos hin, if_pos hin, getD_eq_getElem?_getD, getElem?_replicate,
        if_pos (by omega)]
      rfl
    · rw [if_neg hin, if_neg hin]
  have hbytes : (s.stored frame n).buffer.getD (i - s.storageOffset) 0
      = if frame.offset - s.storageOffset ≤ i - s.storageOffset ∧
          i - s.storageOffset < frame.offset - s.storageOffset + (s.retained frame).length then
          (s.retained frame).getD (i - s.storageOffset - (frame.offset - s.storageOffset)) 0
        else s.buffer.getD (i - s.storageOffset) 0 := by
    show (overwrite (resize s.buffer _ 0) _ (s.retained frame)).getD _ 0 = _
    rw [getD_overwrite hroomBytes, getD_resize]
  have hstorage : (s.stored frame n).storageOffset = s.storageOffset := rfl
  unfold byteAt
  rw [hstorage, hbits, hbytes]
  by_cases hin : frame.offset ≤ i ∧ i < frame.offset + frame.data.length
  · have hin' : frame.offset - s.storageOffset ≤ i - s.storageOffset ∧
        i - s.storageOffset < frame.offset - s.storageOffset + (s.retained frame).length := by omega
    rw [if_pos hin, if_pos hin', if_pos hin', retained_getD hin'.1,
      show s.storageOffset + (i - s.storageOffset) = i by omega]
    rfl
  have hin' : ¬ (frame.offset - s.storageOffset ≤ i - s.storageOffset ∧
      i - s.storageOffset < frame.offset - s.storageOffset + (s.retained frame).length) := by omega
  rw [if_neg hin, if_neg hin', if_neg hin']

/-- **After an accepted frame every offset holds what it held, or what the frame brought.** -/
theorem insertTracked_byteAt {s' : RecvState} (h : Tracks A s) (hagree : Agrees s frame)
    (hins : s.insertTracked frame = (.ok n, s')) :
    s'.storageOffset = s.storageOffset ∧ s'.maxBuffered = s.maxBuffered ∧
    ∀ i, s.storageOffset ≤ i → s'.byteAt i = (s.byteAt i).or
      (if frame.offset ≤ i ∧ i < frame.offset + frame.data.length then some (frameByte frame i)
        else none) := by
  obtain ⟨-, ⟨-, hs, hle⟩ | ⟨hpast, -, hs⟩⟩ := insertTracked_cases hins
  · have hsame : s'.storageOffset = s.storageOffset ∧ s'.maxBuffered = s.maxBuffered ∧
        ∀ i, s'.byteAt i = s.byteAt i := by
      rw [hs]
      unfold noteFinal
      by_cases hfin : frame.fin = true
      · rw [if_pos hfin]
        exact ⟨rfl, rfl, fun _ => rfl⟩
      · simp [hfin]
    refine ⟨hsame.1, hsame.2.1, ?_⟩
    intro i hi
    rw [hsame.2.2]
    by_cases hin : frame.offset ≤ i ∧ i < frame.offset + frame.data.length
    · have hmem := span_subset h hle (mem_Ico.mpr hin)
      obtain ⟨b, hb⟩ := ne_none_iff_exists'.mp ((byteAt_isSome h hi).mpr hmem)
      rw [hb]
      rfl
    · simp [hin]
  have hst : s' = s.stored frame n := hs
  rw [hst]
  refine ⟨rfl, rfl, ?_⟩
  intro i hi
  rw [stored_byteAt hpast hi]
  by_cases hin : frame.offset ≤ i ∧ i < frame.offset + frame.data.length
  · rw [if_pos hin, if_pos hin]
    cases hb : s.byteAt i with
    | none => rfl
    | some b =>
      rw [hagree i (by omega) hin.2 b hb]
      rfl
  · simp [hin]

/-! ### The shadow -/

namespace Preflight

/-- The byte the preflight sees at an offset: stored, or brought by an earlier frame. -/
def byteAt (p : Preflight) (pending : List StreamFrame) (absolute : Nat) : Option UInt8 :=
  if p.received.getD (absolute - p.storageOffset) false then
    some (p.buffer.getD (absolute - p.storageOffset) 0)
  else pendingByte p.streamId absolute pending

lemma pendingByte_append (streamId absolute : Nat) (frame : StreamFrame) :
    ∀ pending : List StreamFrame, pendingByte streamId absolute (pending ++ [frame])
      = (pendingByte streamId absolute pending).or
        (if frame.streamId = streamId ∧ frame.offset ≤ absolute ∧
            absolute < frame.offset + frame.data.length then some (frameByte frame absolute)
          else none) := by
  intro pending
  induction pending with
  | nil =>
    simp only [nil_append, pendingByte, none_or]
    by_cases hid : frame.streamId ≠ streamId
    · rw [if_pos hid, if_neg (by simp [hid])]
    rw [if_neg hid]
    by_cases hout : absolute < frame.offset ∨ frame.offset + frame.data.length ≤ absolute
    · rw [if_pos hout, if_neg (by omega)]
    · rw [if_neg hout, if_pos (by omega)]
      rfl
  | cons prior rest ih =>
    simp only [cons_append, pendingByte]
    by_cases hid : prior.streamId ≠ streamId
    · rw [if_pos hid, if_pos hid, ih]
    rw [if_neg hid, if_neg hid]
    by_cases hout : absolute < prior.offset ∨ prior.offset + prior.data.length ≤ absolute
    · rw [if_pos hout, if_pos hout, ih]
    · simp [hout]

variable {p : Preflight} {pending : List StreamFrame} {frame : StreamFrame}

/-- A frame of another stream is not seen. -/
theorem byteAt_append_ne (hne : frame.streamId ≠ p.streamId) (i : Nat) :
    p.byteAt (pending ++ [frame]) i = p.byteAt pending i := by
  simp [pendingByte_append, hne, byteAt]

lemma scanFrame_some :
    ∀ (remaining absolute newly n : Nat),
      p.scanFrame pending frame remaining absolute newly = some n →
      (∀ i, absolute ≤ i → i < absolute + remaining → ∀ b, p.byteAt pending i = some b →
        b = frameByte frame i) ∧
      n = newly + ((Finset.Ico absolute (absolute + remaining)).filter
        (fun i => p.byteAt pending i = none)).card := by
  intro remaining
  induction remaining with
  | zero =>
    intro absolute newly n h
    simp only [scanFrame, some.injEq] at h
    refine ⟨fun i h₁ h₂ => by omega, ?_⟩
    simp [h]
  | succ k ih =>
    intro absolute newly n h
    have hsplit : Finset.Ico absolute (absolute + (k + 1))
        = insert absolute (Finset.Ico (absolute + 1) (absolute + 1 + k)) := by
      ext i
      simp only [mem_Ico, mem_insert]
      omega
    have hout : absolute ∉ (Finset.Ico (absolute + 1) (absolute + 1 + k)).filter
        (fun i => p.byteAt pending i = none) := by simp
    -- The first offset either holds the frame's byte already or is counted.
    have key : (∀ b, p.byteAt pending absolute = some b → b = frameByte frame absolute) ∧
        p.scanFrame pending frame k (absolute + 1)
          (newly + if p.byteAt pending absolute = none then 1 else 0) = some n := by
      unfold scanFrame at h
      unfold byteAt frameByte
      by_cases hbit : p.received.getD (absolute - p.storageOffset) false = true
      · rw [if_pos hbit] at h
        simp only [hbit, if_true, some.injEq]
        obtain ⟨hbad, h⟩ := of_guard h nofun
        refine ⟨?_, h⟩
        intro b hb
        rw [← hb]
        exact not_not.mp hbad
      rw [if_neg hbit] at h
      simp only [hbit, if_false, Bool.false_eq_true]
      cases hpend : pendingByte p.streamId absolute pending with
      | none =>
        rw [hpend] at h
        exact ⟨by simp, by simpa using h⟩
      | some byte =>
        rw [hpend] at h
        simp only at h
        obtain ⟨hbad, h⟩ := of_guard h nofun
        refine ⟨?_, by simpa using h⟩
        intro b hb
        rw [some.injEq] at hb
        rw [← hb]
        exact not_not.mp hbad
    obtain ⟨hfirst, hrest⟩ := key
    obtain ⟨hall, hcount⟩ := ih _ _ _ hrest
    constructor
    · intro i h₁ h₂ b hb
      by_cases hi : i = absolute
      · rw [hi] at hb ⊢
        exact hfirst b hb
      · exact hall i (by omega) (by omega) b hb
    rw [hsplit, filter_insert]
    by_cases hnone : p.byteAt pending absolute = none
    · rw [if_pos hnone, card_insert_of_notMem hout]
      rw [if_pos hnone] at hcount
      omega
    rw [if_neg hnone]
    rw [if_neg hnone] at hcount
    omega

end Preflight

/-- The preflight sees the stream as it will be when the earlier frames have been applied. -/
structure Shadow (p : Preflight) (pending : List StreamFrame) (s : RecvState) : Prop where
  streamId : p.streamId = s.streamId
  storage : p.storageOffset = s.storageOffset
  maxBuffered : p.maxBuffered = s.maxBuffered
  high : p.highestReceivedEnd = s.highestReceivedEnd
  total : p.receivedTotal = s.receivedTotal
  bytes : ∀ i, s.storageOffset ≤ i → p.byteAt pending i = s.byteAt i

variable {s : RecvState} {pending : List StreamFrame} {p p' : Preflight} {frame : StreamFrame}

lemma Shadow.init (h : ∀ frame ∈ pending, frame.streamId ≠ s.streamId) :
    Shadow (Preflight.init s) pending s := by
  have hnone : ∀ i, Preflight.pendingByte s.streamId i pending = none := by
    intro i
    induction pending with
    | nil => rfl
    | cons f rest ih =>
      unfold Preflight.pendingByte
      rw [if_pos (h f (by simp))]
      exact ih (fun g hg => h g (by simp [hg]))
  refine ⟨rfl, rfl, rfl, rfl, rfl, ?_⟩
  intro i _
  unfold Preflight.byteAt byteAt
  show (if s.received.getD _ false then _ else Preflight.pendingByte s.streamId i pending) = _
  rw [hnone]
  rfl

lemma Shadow.withFinal (h : Shadow p pending s) (size : Option Nat) :
    Shadow { p with finalSize := size } pending s :=
  ⟨h.streamId, h.storage, h.maxBuffered, h.high, h.total, h.bytes⟩

/-- A frame below the storage: both sides only look at its FIN. -/
theorem Shadow.insert_below {A : Finset Nat} (hw : Tracks A s) (h : Shadow p pending s)
    (hid : frame.streamId = s.streamId) (hfits : frame.offset + frame.data.length ≤ maxU64)
    (hfinal : exceedsFinalSize s.finalSize (frame.offset + frame.data.length) frame.fin = false)
    (hfin : frame.fin = true → s.highestReceivedEnd ≤ frame.offset + frame.data.length)
    (hold : frame.offset + frame.data.length ≤ s.storageOffset) :
    ∃ s', s.insertTracked frame = (.ok 0, s') ∧ Shadow p pending s' := by
  have hst := hw.storageLeRead
  have hrd := hw.readLeContiguous
  have hhigh := hw.contiguous_le_high
  have hagree : Agrees s frame := by
    intro i h₁ h₂
    omega
  obtain ⟨m, s', hins⟩ := insertTracked_of_agree hw hid hfits hfinal hfin (fun hc => by omega) hagree
  obtain ⟨htr', hm⟩ := insertTracked_tracks hw hins
  have hsub : span frame ⊆ A := span_subset hw (.inl (by omega))
  rw [sdiff_eq_empty_iff_subset.mpr hsub, card_empty] at hm
  subst hm
  obtain ⟨hid', -, hmax⟩ := insertTracked_final hw hins
  obtain ⟨hst', hmb', hbytes'⟩ := insertTracked_byteAt hw hagree hins
  refine ⟨s', hins, by rw [h.streamId, hid'], by rw [h.storage, hst'], by rw [h.maxBuffered, hmb'],
    ?_, ?_, ?_⟩
  · rw [h.high]
    omega
  · rw [h.total, htr'.total, hw.total, union_eq_left.mpr hsub]
  intro i hi
  rw [hst'] at hi
  rw [hbytes' i hi, if_neg (by omega), h.bytes i hi, Option.or_none]

/-- The offsets of the frame at which nothing is stored or pending are those not in yet. -/
theorem Shadow.fresh_eq {A : Finset Nat} (hw : Tracks A s) (h : Shadow p pending s) :
    (Finset.Ico (max frame.offset s.storageOffset) (frame.offset + frame.data.length)).filter
      (fun i => p.byteAt pending i = none) = span frame \ A := by
  ext i
  rw [Finset.mem_filter, Finset.mem_Ico, Finset.mem_sdiff]
  unfold span
  rw [mem_Ico]
  constructor
  · rintro ⟨⟨h₁, h₂⟩, hnone⟩
    rw [h.bytes i (by omega)] at hnone
    exact ⟨by omega, fun hA => (byteAt_isSome hw (by omega)).mpr hA hnone⟩
  rintro ⟨⟨h₁, h₂⟩, hout⟩
  have hstored : s.storageOffset ≤ i := by
    by_contra hlow
    exact hout (hw.below_storage (by omega))
  refine ⟨by omega, ?_⟩
  rw [h.bytes i hstored]
  by_contra hsome
  exact hout ((byteAt_isSome hw hstored).mp hsome)

/-- **What the preflight of a frame accepts, the stream accepts, with the same count.** -/
theorem Shadow.insertTracked {A : Finset Nat} {pending' : List StreamFrame} {n : Nat}
    (hw : Tracks A s) (h : Shadow p pending s)
    (hfinal : exceedsFinalSize s.finalSize (frame.offset + frame.data.length) frame.fin = false)
    (hok : p.insertTracked pending frame = .ok (n, p', pending')) :
    frame.streamId = p.streamId ∧
    (pending' = pending ∨ pending' = pending ++ [frame]) ∧
    p'.finalSize = (if frame.fin then some (frame.offset + frame.data.length) else p.finalSize) ∧
    ∃ s', s.insertTracked frame = (.ok n, s') ∧ Shadow p' pending' s' := by
  unfold Preflight.insertTracked at hok
  obtain ⟨hid, hok⟩ := of_guard hok nofun
  simp only [not_not] at hid
  have hidS : frame.streamId = s.streamId := hid.trans h.streamId
  cases hadd : checkedAdd frame.offset frame.data.length with
  | none => rw [hadd] at hok; simp at hok
  | some stop =>
    rw [hadd] at hok
    obtain ⟨hstop, hfits⟩ := checkedAdd_eq_some.mp hadd
    subst hstop
    simp only at hok
    obtain ⟨-, hok⟩ := of_guard hok nofun
    by_cases hold : frame.offset + frame.data.length ≤ p.storageOffset
    · rw [if_pos hold] at hok
      obtain ⟨hbad, hok⟩ := of_guard hok nofun
      simp only [Except.ok.injEq, Prod.mk.injEq] at hok
      obtain ⟨rfl, rfl, rfl⟩ := hok
      rw [h.high] at hbad
      rw [h.storage] at hold
      obtain ⟨s', hins, hs'⟩ := h.insert_below hw hidS hfits hfinal
        (fun hf => not_lt.mp fun hc => hbad ⟨hf, hc⟩) hold
      refine ⟨hid, .inl rfl, ?_, s', hins, ?_⟩
      · split <;> rfl
      · split
        · exact hs'.withFinal _
        · exact hs'
    rw [if_neg hold] at hok
    obtain ⟨hbig, hok⟩ := of_guard hok nofun
    cases hscan : p.scanFrame pending frame
        (frame.offset + frame.data.length - max frame.offset p.storageOffset)
        (max frame.offset p.storageOffset) 0 with
    | none => rw [hscan] at hok; simp at hok
    | some newly =>
      rw [hscan] at hok
      simp only at hok
      obtain ⟨hbad, hok⟩ := of_guard hok nofun
      simp only [Except.ok.injEq, Prod.mk.injEq] at hok
      obtain ⟨hn, hp', hpend⟩ := hok
      rw [h.storage] at hold hbig hscan
      rw [h.maxBuffered] at hbig
      obtain ⟨hall, hcount⟩ := Preflight.scanFrame_some _ _ _ _ hscan
      rw [show max frame.offset s.storageOffset
        + (frame.offset + frame.data.length - max frame.offset s.storageOffset)
        = frame.offset + frame.data.length by omega] at hall hcount
      have hagree : Agrees s frame := by
        intro i h₁ h₂ b hb
        rw [← h.bytes i (by omega)] at hb
        exact hall i h₁ h₂ b hb
      have hfin : frame.fin = true → s.highestReceivedEnd ≤ frame.offset + frame.data.length := by
        intro hf
        by_contra hc
        rw [h.high] at hbad
        exact hbad ⟨hf, by omega⟩
      obtain ⟨m, s', hins⟩ := insertTracked_of_agree hw hidS hfits hfinal hfin
        (fun _ => by omega) hagree
      obtain ⟨htr', hm⟩ := insertTracked_tracks hw hins
      obtain ⟨hid', hfinal', hmax⟩ := insertTracked_final hw hins
      obtain ⟨hst', hmb', hbytes'⟩ := insertTracked_byteAt hw hagree hins
      have hnm : n = m := by
        rw [hm, ← h.fresh_eq hw]
        omega
      subst hnm
      refine ⟨hid, .inr hpend.symm, by rw [← hp'], s', hins, ?_⟩
      have hcard := htr'.card_le
      have hunion : (A ∪ span frame).card = A.card + (span frame \ A).card := by
        rw [← card_union_of_disjoint disjoint_sdiff, union_sdiff_self_eq_union]
      refine ⟨?_, ?_, ?_, ?_, ?_, ?_⟩
      · rw [← hp', hid']
        exact h.streamId
      · rw [← hp', hst']
        exact h.storage
      · rw [← hp', hmb']
        exact h.maxBuffered
      · rw [← hp', hmax, ← h.high]
      · rw [← hp', htr'.total]
        show saturatingAdd p.receivedTotal newly = _
        rw [h.total, hw.total, hn]
        unfold saturatingAdd
        omega
      intro i hi
      rw [hst'] at hi
      rw [hbytes' i hi, ← h.bytes i hi, ← hpend, ← hp']
      unfold Preflight.byteAt
      by_cases hbit : p.received.getD (i - p.storageOffset) false = true
      · rw [if_pos hbit, if_pos hbit]
        rfl
      · rw [if_neg hbit, if_neg hbit, Preflight.pendingByte_append]
        simp only [hid, true_and]

lemma Preflight.applyFinalSize_ok {size : Nat} {final : Bool}
    (h : p.applyFinalSize size final = .ok p') :
    p' = { p with finalSize := if final then some size else p.finalSize } ∧
    (final = true → p.highestReceivedEnd ≤ size) ∧
    (∀ known, p.finalSize = some known → size ≤ known ∧ (final = true → size = known)) := by
  unfold applyFinalSize at h
  obtain ⟨hlow, h⟩ := of_guard h nofun
  have hhigh : final = true → p.highestReceivedEnd ≤ size := by
    intro hf
    by_contra hc
    exact hlow ⟨hf, by omega⟩
  cases hknown : p.finalSize with
  | none =>
    rw [hknown] at h
    simp only [Except.ok.injEq] at h
    refine ⟨?_, hhigh, by simp⟩
    rw [← h]
    by_cases hf : final = true
    · rw [if_pos hf, if_pos hf]
    · rw [if_neg hf, if_neg hf, ← hknown]
  | some known =>
    rw [hknown] at h
    simp only at h
    obtain ⟨hbig, h⟩ := of_guard h nofun
    obtain ⟨hne, h⟩ := of_guard h nofun
    rw [Except.ok.injEq] at h
    have heq : final = true → size = known := by
      intro hf
      by_contra hc
      exact hne ⟨hf, hc⟩
    refine ⟨?_, hhigh, ?_⟩
    · rw [← h]
      by_cases hf : final = true
      · rw [if_pos hf, heq hf, ← hknown]
      · rw [if_neg hf, ← hknown]
    intro k hk
    rw [some.injEq] at hk
    subst hk
    exact ⟨by omega, heq⟩

lemma Shadow.append_ne (h : Shadow p pending s) (hne : frame.streamId ≠ p.streamId) :
    Shadow p (pending ++ [frame]) s := by
  refine ⟨h.streamId, h.storage, h.maxBuffered, h.high, h.total, ?_⟩
  intro i hi
  rw [Preflight.byteAt_append_ne hne]
  exact h.bytes i hi

end RecvState

end Netz.Quic
