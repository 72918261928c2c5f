/-
Reassembly of a received stream.

The abstract view of a stream is the finite set `A` of offsets that have arrived.
`Tracks A s` says the bookkeeping of a `RecvState` agrees with it: the bitmap is
`A` from `storageOffset` on, the contiguous end is the first offset outside `A`,
and the byte total is the size of `A`.  `Content S A s` says the stored bytes are
those of the byte string `S` wherever they have arrived.

An accepted frame adds its own offsets to `A` and reports how many of them are new;
reading and compaction change neither `A` nor the bytes.  Everything the reader
sees follows: the contiguous bytes are a slice of `S`, and consecutive reads piece
together a prefix of it.
-/
import Netz.Lib.Machine
import Netz.Quic.Stream

namespace Netz.Quic

open Lib List Finset

lemma checkedAdd_eq_some {a b c : Nat} :
    checkedAdd a b = some c ↔ c = a + b ∧ a + b ≤ maxU64 := by
  unfold checkedAdd
  by_cases h : a + b ≤ maxU64
  · rw [if_pos h, Option.some.injEq]
    exact ⟨fun hc => ⟨hc.symm, h⟩, fun hc => hc.1.symm⟩
  · simp [h]

namespace RecvState

/-- The offsets a frame carries. -/
def span (frame : StreamFrame) : Finset Nat :=
  Ico frame.offset (frame.offset + frame.data.length)

/-- The bookkeeping agrees with the set of offsets that have arrived. -/
structure Tracks (A : Finset Nat) (s : RecvState) : Prop where
  sameLength : s.received.length = s.buffer.length
  storageLeRead : s.storageOffset ≤ s.readOffset
  readLeContiguous : s.readOffset ≤ s.contiguousEnd
  bits : ∀ i, s.received[i]? = some true ↔ s.storageOffset + i ∈ A
  prefixIn : ∀ i, i < s.contiguousEnd → i ∈ A
  frontier : s.contiguousEnd ∉ A
  total : s.receivedTotal = A.card
  high : ∀ i ∈ A, i < s.highestReceivedEnd
  fits : ∀ i ∈ A, i < maxU64

/-- The stored bytes are those of `S` wherever they have arrived. -/
def Content (S : Bytes) (A : Finset Nat) (s : RecvState) : Prop :=
  ∀ i, s.storageOffset + i ∈ A → s.buffer[i]? = S[s.storageOffset + i]?

lemma init_tracks (streamId maxBuffered : Nat) : Tracks ∅ (init streamId maxBuffered) :=
  ⟨rfl, le_rfl, le_rfl, by intro i; simp [init], by intro i hi; simp [init] at hi,
    by simp, rfl, by simp, by simp⟩

namespace Tracks

variable {A : Finset Nat} {s : RecvState}

lemma contiguous_le (h : Tracks A s) : s.contiguousEnd ≤ s.storageOffset + s.buffer.length := by
  by_cases heq : s.contiguousEnd ≤ s.storageOffset
  · omega
  have hlast : s.contiguousEnd - 1 ∈ A := h.prefixIn _ (by omega)
  have hbit := (h.bits (s.contiguousEnd - 1 - s.storageOffset)).mpr (by
    rw [show s.storageOffset + (s.contiguousEnd - 1 - s.storageOffset) = s.contiguousEnd - 1 by omega]
    exact hlast)
  have hlt := lt_of_getElem? hbit
  rw [h.sameLength] at hlt
  omega

lemma below_storage (h : Tracks A s) {i : Nat} (hi : i < s.storageOffset) : i ∈ A :=
  h.prefixIn i (by have := h.storageLeRead; have := h.readLeContiguous; omega)

lemma card_le (h : Tracks A s) : A.card ≤ maxU64 := by
  have hsub : A ⊆ Finset.range maxU64 := fun i hi => Finset.mem_range.mpr (h.fits i hi)
  have := card_le_card hsub
  rwa [card_range] at this

/-- The final size plays no part in the bookkeeping. -/
theorem withFinal (h : Tracks A s) (size : Option Nat) : Tracks A { s with finalSize := size } :=
  ⟨h.sameLength, h.storageLeRead, h.readLeContiguous, h.bits, h.prefixIn, h.frontier, h.total,
    h.high, h.fits⟩

end Tracks

/-! ### What an accepted frame does -/

/-- The state after a frame that brought nothing new. -/
def noteFinal (s : RecvState) (frame : StreamFrame) : RecvState :=
  if frame.fin then { s with finalSize := some (frame.offset + frame.data.length) } else s

lemma acceptKnown_ok {s s' : RecvState} {stop n : Nat} {fin : Bool}
    (h : s.acceptKnown stop fin = (.ok n, s')) :
    n = 0 ∧ s' = if fin then { s with finalSize := some stop } else s := by
  unfold acceptKnown at h
  obtain ⟨-, h⟩ := of_guard h nofun
  simp only [Prod.mk.injEq, Except.ok.injEq] at h
  exact ⟨h.1.symm, h.2.symm⟩

/-- The part of a frame's data that reaches past the storage offset. -/
def retained (s : RecvState) (frame : StreamFrame) : Bytes :=
  frame.data.drop (s.storageOffset - frame.offset)

variable {frame : StreamFrame}

/-- **An accepted frame either brings nothing new or is stored.** -/
theorem insertTracked_cases {s s' : RecvState} {n : Nat} (h : s.insertTracked frame = (.ok n, s')) :
    frame.offset + frame.data.length ≤ maxU64 ∧
    ((n = 0 ∧ s' = s.noteFinal frame ∧
        (frame.offset + frame.data.length ≤ s.storageOffset ∨
          frame.offset + frame.data.length ≤ s.contiguousEnd)) ∨
      (s.storageOffset < frame.offset + frame.data.length ∧
        s.newlyReceived (s.retained frame) (frame.offset - s.storageOffset)
          (frame.offset + frame.data.length - s.storageOffset) = some n ∧
        s' = s.store (s.retained frame) (frame.offset - s.storageOffset)
          (frame.offset + frame.data.length - s.storageOffset)
          (frame.offset + frame.data.length) n frame.fin)) := by
  unfold insertTracked at h
  obtain ⟨-, h⟩ := of_guard h nofun
  cases hend : checkedAdd frame.offset frame.data.length with
  | none => rw [hend] at h; simp at h
  | some stop =>
    rw [hend] at h
    obtain ⟨hstop, hfits⟩ := checkedAdd_eq_some.mp hend
    subst hstop
    refine ⟨hfits, ?_⟩
    simp only at h
    obtain ⟨-, h⟩ := of_guard h nofun
    by_cases hold : frame.offset + frame.data.length ≤ s.storageOffset
    · rw [if_pos hold] at h
      obtain ⟨hn, hs⟩ := acceptKnown_ok h
      exact .inl ⟨hn, hs, .inl hold⟩
    rw [if_neg hold] at h
    unfold insertRetained at h
    have hskip : max frame.offset s.storageOffset - frame.offset = s.storageOffset - frame.offset := by
      omega
    have hrel : max frame.offset s.storageOffset - s.storageOffset
        = frame.offset - s.storageOffset := by omega
    have hdata : frame.data.drop (s.storageOffset - frame.offset) = s.retained frame := rfl
    simp only [hskip, hrel, hdata] at h
    have hlen : frame.offset - s.storageOffset + (s.retained frame).length
        = frame.offset + frame.data.length - s.storageOffset := by
      unfold retained
      rw [length_drop]
      omega
    have hadd : checkedAdd (frame.offset - s.storageOffset) (s.retained frame).length
        = some (frame.offset + frame.data.length - s.storageOffset) :=
      checkedAdd_eq_some.mpr ⟨hlen.symm, by omega⟩
    rw [hadd] at h
    simp only at h
    obtain ⟨-, h⟩ := of_guard h nofun
    by_cases hknown : frame.offset + frame.data.length - s.storageOffset ≤ s.received.length ∧
        frame.offset + frame.data.length ≤ s.contiguousEnd
    · rw [if_pos hknown] at h
      obtain ⟨-, h⟩ := of_guard h nofun
      obtain ⟨hn, hs⟩ := acceptKnown_ok h
      exact .inl ⟨hn, hs, .inr hknown.2⟩
    rw [if_neg hknown] at h
    cases hnew : s.newlyReceived (s.retained frame) (frame.offset - s.storageOffset)
        (frame.offset + frame.data.length - s.storageOffset) with
    | none => rw [hnew] at h; simp at h
    | some newly =>
      rw [hnew] at h
      simp only at h
      obtain ⟨-, h⟩ := of_guard h nofun
      simp only [Prod.mk.injEq, Except.ok.injEq] at h
      obtain ⟨hn, hs⟩ := h
      subst hn
      exact .inr ⟨by omega, rfl, hs.symm⟩

/-! ### Counting the new offsets -/

variable {s : RecvState}

lemma getD_received {i : Nat} : s.received.getD i false = true ↔ s.received[i]? = some true := by
  rw [getD_eq_getElem?_getD]
  cases s.received[i]? with
  | none | some => simp

lemma scanOverlap_count (s : RecvState) (data : Bytes) (relativeOffset : Nat) :
    ∀ (remaining relative newly n : Nat),
      s.scanOverlap data relativeOffset remaining relative newly = some n →
      n = newly + (unset s.received relative (relative + remaining)).card := by
  intro remaining
  induction remaining with
  | zero => simp [scanOverlap, unset]
  | succ k ih =>
    intro relative newly n h
    rw [card_unset_succ (by omega), show relative + (k + 1) = relative + 1 + k by omega]
    unfold scanOverlap at h
    by_cases hbit : s.received.getD relative false = true
    · rw [if_pos hbit] at h
      rw [if_pos (getD_received.mp hbit)]
      obtain ⟨-, h⟩ := of_guard h nofun
      have := ih (relative + 1) newly n h
      omega
    rw [if_neg hbit] at h
    rw [if_neg (fun hc => hbit (getD_received.mpr hc))]
    have := ih (relative + 1) (newly + 1) n h
    omega

lemma newlyReceived_count {data : Bytes} {relativeOffset relativeEnd n : Nat}
    (hlen : relativeOffset + data.length = relativeEnd)
    (h : s.newlyReceived data relativeOffset relativeEnd = some n) :
    n = (unset s.received relativeOffset relativeEnd).card := by
  unfold newlyReceived at h
  by_cases hpast : s.received.length ≤ relativeOffset
  · rw [if_pos hpast, Option.some.injEq] at h
    rw [card_unset_of_length_le hpast]
    omega
  rw [if_neg hpast] at h
  simp only at h
  cases hscan : s.scanOverlap data relativeOffset
      (min relativeEnd s.received.length - relativeOffset) relativeOffset 0 with
  | none => rw [hscan] at h; simp at h
  | some newly =>
    rw [hscan] at h
    simp only [Option.some.injEq] at h
    have hcount := scanOverlap_count s data relativeOffset _ _ _ _ hscan
    rw [show relativeOffset + (min relativeEnd s.received.length - relativeOffset)
      = min relativeEnd s.received.length by omega] at hcount
    by_cases hgrow : s.received.length < relativeEnd
    · -- The frame reaches past what is stored, and the rest of it is all new.
      rw [if_pos hgrow] at h
      rw [show min relativeEnd s.received.length = s.received.length by omega] at hcount
      rw [card_unset_split (show relativeOffset ≤ s.received.length by omega) (by omega),
        card_unset_of_length_le le_rfl]
      omega
    rw [if_neg hgrow] at h
    rw [show min relativeEnd s.received.length = relativeEnd by omega] at hcount
    omega

/-- The cells that are not set are the frame's offsets that had not arrived. -/
theorem card_unset_eq {A : Finset Nat} (h : Tracks A s)
    (hpast : s.storageOffset < frame.offset + frame.data.length) :
    (unset s.received (frame.offset - s.storageOffset)
      (frame.offset + frame.data.length - s.storageOffset)).card = (span frame \ A).card := by
  refine Finset.card_bij (fun i _ => s.storageOffset + i) ?_ ?_ ?_
  · intro i hi
    obtain ⟨hrange, hunset⟩ := Finset.mem_filter.mp hi
    obtain ⟨hlo, hhi⟩ := Finset.mem_Ico.mp hrange
    rw [Finset.mem_sdiff]
    refine ⟨?_, fun hc => hunset ((h.bits i).mpr hc)⟩
    unfold span
    rw [Finset.mem_Ico]
    omega
  · omega
  intro b hb
  obtain ⟨hspan, hout⟩ := Finset.mem_sdiff.mp hb
  obtain ⟨hlo, hhi⟩ := Finset.mem_Ico.mp hspan
  have hstored : s.storageOffset ≤ b := by
    by_contra hc
    exact hout (h.below_storage (by omega))
  refine ⟨b - s.storageOffset, ?_, by omega⟩
  refine Finset.mem_filter.mpr ⟨Finset.mem_Ico.mpr (by omega), ?_⟩
  intro hbit
  have := (h.bits _).mp hbit
  rw [show s.storageOffset + (b - s.storageOffset) = b by omega] at this
  exact hout this

/-! ### Storing a frame -/

lemma length_retained (hpast : s.storageOffset < frame.offset + frame.data.length) :
    frame.offset - s.storageOffset + (s.retained frame).length
      = frame.offset + frame.data.length - s.storageOffset := by
  unfold retained
  rw [length_drop]
  omega

/-- The state a stored frame leaves. -/
def stored (s : RecvState) (frame : StreamFrame) (n : Nat) : RecvState :=
  s.store (s.retained frame) (frame.offset - s.storageOffset)
    (frame.offset + frame.data.length - s.storageOffset) (frame.offset + frame.data.length) n
    frame.fin

section Stored

variable {A : Finset Nat} {s : RecvState} {frame : StreamFrame} {n : Nat}

lemma stored_bits (h : Tracks A s) (hpast : s.storageOffset < frame.offset + frame.data.length)
    (i : Nat) :
    (s.stored frame n).received[i]? = some true ↔ s.storageOffset + i ∈ A ∪ span frame := by
  have hlen := length_retained hpast
  have hroom : frame.offset - s.storageOffset
      + (replicate (s.retained frame).length true).length
      ≤ (resize s.received (frame.offset + frame.data.length - s.storageOffset) false).length := by
    rw [length_replicate, length_resize]
    omega
  show (overwrite (resize s.received _ false) _ (replicate (s.retained frame).length true))[i]?
    = some true ↔ _
  rw [getElem?_overwrite hroom, length_replicate, mem_union]
  unfold span
  rw [mem_Ico]
  by_cases hin : frame.offset - s.storageOffset ≤ i ∧
      i < frame.offset - s.storageOffset + (s.retained frame).length
  · rw [if_pos hin, getElem?_replicate, if_pos (by omega)]
    constructor
    · intro _; exact .inr (by omega)
    · intro _; rfl
  rw [if_neg hin, getElem?_resize_false, h.bits]
  constructor
  · intro hA; exact .inl hA
  intro hor
  rcases hor with hA | hspan
  · exact hA
  · exact absurd hspan (by omega)

lemma stored_contiguous (h : Tracks A s)
    (hpast : s.storageOffset < frame.offset + frame.data.length) :
    s.contiguousEnd ≤ (s.stored frame n).contiguousEnd ∧
    (∀ i, i < (s.stored frame n).contiguousEnd → i ∈ A ∪ span frame) ∧
    (s.stored frame n).contiguousEnd ∉ A ∪ span frame := by
  have hbits := fun i => stored_bits (n := n) h hpast i
  have hst := h.storageLeRead
  have hrd := h.readLeContiguous
  -- `base` is where the walk over the bitmap starts, `start` the same place in it.
  have key : ∀ base start, base = s.storageOffset + start → s.contiguousEnd ≤ base →
      (∀ i, i < base → i ∈ A ∪ span frame) →
      s.contiguousEnd ≤ base + leadingTrue ((s.stored frame n).received.drop start) ∧
      (∀ i, i < base + leadingTrue ((s.stored frame n).received.drop start) → i ∈ A ∪ span frame) ∧
      base + leadingTrue ((s.stored frame n).received.drop start) ∉ A ∪ span frame := by
    intro base start hbase hle hbelow
    refine ⟨by omega, ?_, ?_⟩
    · intro i hi
      by_cases hlow : i < base
      · exact hbelow i hlow
      have hbit := getElem?_of_lt_leadingTrue
        ((s.stored frame n).received.drop start) (i - base) (by omega)
      rw [getElem?_drop] at hbit
      have := (hbits _).mp hbit
      rwa [show s.storageOffset + (start + (i - base)) = i by omega] at this
    intro hc
    have hbit := getElem?_leadingTrue ((s.stored frame n).received.drop start)
    rw [getElem?_drop] at hbit
    refine hbit ((hbits _).mpr ?_)
    rwa [show s.storageOffset + (start + leadingTrue ((s.stored frame n).received.drop start))
      = base + leadingTrue ((s.stored frame n).received.drop start) by omega]
  by_cases hjoin : frame.offset - s.storageOffset ≤ s.contiguousEnd - s.storageOffset ∧
      s.contiguousEnd - s.storageOffset < frame.offset + frame.data.length - s.storageOffset
  · have hce : (s.stored frame n).contiguousEnd
        = s.storageOffset + (frame.offset + frame.data.length - s.storageOffset)
          + leadingTrue ((s.stored frame n).received.drop
            (frame.offset + frame.data.length - s.storageOffset)) := by
      simp only [stored, store, if_pos hjoin]
    rw [hce]
    refine key _ _ rfl (by omega) ?_
    intro i hi
    rw [mem_union]
    by_cases hold : i < s.contiguousEnd
    · exact .inl (h.prefixIn i hold)
    · exact .inr (mem_Ico.mpr (by omega))
  have hce : (s.stored frame n).contiguousEnd = s.contiguousEnd
      + leadingTrue ((s.stored frame n).received.drop (s.contiguousEnd - s.storageOffset)) := by
    simp only [stored, store, if_neg hjoin]
  rw [hce]
  refine key _ _ (by omega) le_rfl ?_
  intro i hi
  exact mem_union_left _ (h.prefixIn i hi)

lemma stored_tracks (h : Tracks A s) (hfits : frame.offset + frame.data.length ≤ maxU64)
    (hpast : s.storageOffset < frame.offset + frame.data.length)
    (hn : n = (span frame \ A).card) : Tracks (A ∪ span frame) (s.stored frame n) := by
  obtain ⟨hmono, hbelow, hfrontier⟩ := stored_contiguous (n := n) h hpast
  have hlen := length_retained hpast
  have hsmall : ∀ i ∈ A ∪ span frame, i < maxU64 := by
    intro i hi
    rcases mem_union.mp hi with hA | hspan
    · exact h.fits i hA
    · have := (mem_Ico.mp hspan).2
      omega
  have hcard : (A ∪ span frame).card = A.card + (span frame \ A).card := by
    rw [← card_union_of_disjoint disjoint_sdiff, union_sdiff_self_eq_union]
  refine ⟨?_, h.storageLeRead, ?_, fun i => stored_bits h hpast i, hbelow, hfrontier, ?_, ?_, hsmall⟩
  · show (overwrite _ _ _).length = (overwrite _ _ _).length
    rw [length_overwrite (by rw [length_replicate, length_resize]; omega),
      length_overwrite (by rw [length_resize]; omega), length_resize, length_resize, h.sameLength]
  · exact Nat.le_trans h.readLeContiguous hmono
  · show saturatingAdd s.receivedTotal n = _
    have hle : (A ∪ span frame).card ≤ maxU64 := by
      have := card_le_card
        (fun i hi => Finset.mem_range.mpr (hsmall i hi) : A ∪ span frame ⊆ Finset.range maxU64)
      rwa [card_range] at this
    rw [h.total, hcard] at *
    unfold saturatingAdd
    omega
  intro i hi
  show i < max s.highestReceivedEnd (frame.offset + frame.data.length)
  rcases mem_union.mp hi with hA | hspan
  · have := h.high i hA
    omega
  · have := (mem_Ico.mp hspan).2
    omega

/-- A frame is a slice of `S`, and only one that ends where `S` does closes the stream. -/
structure SliceOf (S : Bytes) (frame : StreamFrame) : Prop where
  inBounds : frame.offset + frame.data.length ≤ S.length
  bytes : frame.data = slice S frame.offset (frame.offset + frame.data.length)
  finAtEnd : frame.fin = true → frame.offset + frame.data.length = S.length

instance (S : Bytes) (frame : StreamFrame) : Decidable (SliceOf S frame) :=
  decidable_of_iff (frame.offset + frame.data.length ≤ S.length ∧
      frame.data = slice S frame.offset (frame.offset + frame.data.length) ∧
      (frame.fin = true → frame.offset + frame.data.length = S.length))
    ⟨fun h => ⟨h.1, h.2.1, h.2.2⟩, fun h => ⟨h.1, h.2, h.3⟩⟩

lemma SliceOf.getElem? {S : Bytes} (h : SliceOf S frame) {i : Nat} (hi : i < frame.data.length) :
    frame.data[i]? = S[frame.offset + i]? := by
  rw [h.bytes, getElem?_slice, if_pos (by omega)]

lemma stored_content {S : Bytes} (h : Tracks A s) (hc : Content S A s) (hS : SliceOf S frame)
    (hpast : s.storageOffset < frame.offset + frame.data.length) :
    Content S (A ∪ span frame) (s.stored frame n) := by
  intro i hi
  have hlen := length_retained hpast
  have hroom : frame.offset - s.storageOffset + (s.retained frame).length
      ≤ (resize s.buffer (frame.offset + frame.data.length - s.storageOffset) 0).length := by
    rw [length_resize]
    omega
  show (overwrite (resize s.buffer _ 0) _ (s.retained frame))[i]? = S[s.storageOffset + i]?
  rw [getElem?_overwrite hroom]
  by_cases hin : frame.offset - s.storageOffset ≤ i ∧
      i < frame.offset - s.storageOffset + (s.retained frame).length
  · rw [if_pos hin]
    unfold retained
    rw [List.getElem?_drop, hS.getElem? (by omega)]
    congr 1
    omega
  -- Outside the frame the cell was already there, and growing the buffer kept it.
  rw [if_neg hin]
  have hA : s.storageOffset + i ∈ A := by
    rcases mem_union.mp hi with hA | hspan
    · exact hA
    · have := mem_Ico.mp hspan
      exact absurd this (by simp only [stored, store]; omega)
  have hlt := lt_of_getElem? ((h.bits i).mpr hA)
  rw [getElem?_resize, if_pos (by rw [← h.sameLength]; exact hlt)]
  exact hc i hA

end Stored

/-! ### One call -/

section Calls

variable {S : Bytes} {A : Finset Nat} {s s' : RecvState} {frame : StreamFrame} {n : Nat}

lemma noteFinal_tracks (h : Tracks A s) : Tracks A (s.noteFinal frame) := by
  unfold noteFinal
  by_cases hfin : frame.fin = true
  · rw [if_pos hfin]
    exact h.withFinal _
  · simp [hfin, h]

lemma noteFinal_content (hc : Content S A s) : Content S A (s.noteFinal frame) := by
  unfold noteFinal
  by_cases hfin : frame.fin = true
  · rw [if_pos hfin]
    exact hc
  · simp [hfin, hc]

/-- A frame below the contiguous end brings nothing new. -/
theorem span_subset (h : Tracks A s) (hle : frame.offset + frame.data.length ≤ s.storageOffset ∨
    frame.offset + frame.data.length ≤ s.contiguousEnd) : span frame ⊆ A := by
  intro i hi
  have hst := h.storageLeRead
  have hrd := h.readLeContiguous
  have := (mem_Ico.mp hi).2
  exact h.prefixIn i (by omega)

/-- **An accepted frame adds its offsets, and answers how many of them are new.** -/
theorem insertTracked_tracks (h : Tracks A s) (hins : s.insertTracked frame = (.ok n, s')) :
    Tracks (A ∪ span frame) s' ∧ n = (span frame \ A).card := by
  obtain ⟨hfits, ⟨hn, hs, hle⟩ | ⟨hpast, hnew, hs⟩⟩ := insertTracked_cases hins
  · have hsub := span_subset h hle
    rw [union_eq_left.mpr hsub, sdiff_eq_empty_iff_subset.mpr hsub, hs]
    exact ⟨noteFinal_tracks h, hn⟩
  have hcount := newlyReceived_count (length_retained hpast) hnew
  rw [card_unset_eq h hpast] at hcount
  rw [hs]
  exact ⟨stored_tracks h hfits hpast hcount, hcount⟩

lemma insertTracked_content (h : Tracks A s) (hc : Content S A s) (hS : SliceOf S frame)
    (hins : s.insertTracked frame = (.ok n, s')) : Content S (A ∪ span frame) s' := by
  obtain ⟨-, ⟨-, hs, hle⟩ | ⟨hpast, -, hs⟩⟩ := insertTracked_cases hins
  · rw [union_eq_left.mpr (span_subset h hle), hs]
    exact noteFinal_content hc
  · rw [hs]
    exact stored_content h hc hS hpast

lemma insertTracked_readOffset (hins : s.insertTracked frame = (.ok n, s')) :
    s'.readOffset = s.readOffset := by
  obtain ⟨-, ⟨-, hs, -⟩ | ⟨-, -, hs⟩⟩ := insertTracked_cases hins
  · rw [hs]
    unfold noteFinal
    by_cases hfin : frame.fin = true
    · rw [if_pos hfin]
    · rw [if_neg hfin]
  · rw [hs]
    rfl

lemma available_eq (h : Tracks A s) (hc : Content S A s) :
    s.available = slice S s.readOffset s.contiguousEnd := by
  have hst := h.storageLeRead
  apply ext_getElem?
  intro i
  unfold available
  rw [getElem?_slice, getElem?_slice]
  by_cases hlt : s.readOffset + i < s.contiguousEnd
  · rw [if_pos hlt, if_pos (by omega)]
    have := hc (s.readOffset - s.storageOffset + i) (h.prefixIn _ (by omega))
    rw [this]
    congr 1
    omega
  · rw [if_neg hlt, if_neg (by omega)]

lemma length_available (h : Tracks A s) : s.available.length = s.contiguousEnd - s.readOffset := by
  have hst := h.storageLeRead
  have hrd := h.readLeContiguous
  have hce := h.contiguous_le
  unfold available
  rw [length_slice (by omega)]
  omega

lemma compactConsumedPrefix_cases (s : RecvState) :
    s.compactConsumedPrefix = s ∨
    s.compactConsumedPrefix = { s with
      buffer := s.buffer.drop (s.readOffset - s.storageOffset)
      received := s.received.drop (s.readOffset - s.storageOffset)
      storageOffset := s.readOffset } := by
  unfold compactConsumedPrefix
  by_cases hzero : s.readOffset - s.storageOffset = 0
  · exact .inl (by simp only [if_pos hzero])
  by_cases hlazy : s.readOffset - s.storageOffset < s.buffer.length / 2 ∧
      s.readOffset - s.storageOffset < s.maxBuffered / 2
  · exact .inl (by simp only [if_neg hzero, if_pos hlazy])
  · exact .inr (by simp only [if_neg hzero, if_neg hlazy])

lemma compact_tracks (h : Tracks A s) : Tracks A s.compactConsumedPrefix := by
  have hst := h.storageLeRead
  rcases compactConsumedPrefix_cases s with heq | heq
  · rw [heq]
    exact h
  rw [heq]
  refine ⟨?_, le_rfl, h.readLeContiguous, ?_, h.prefixIn, h.frontier, h.total, h.high, h.fits⟩
  · simp only [length_drop, h.sameLength]
  intro i
  simp only [getElem?_drop]
  rw [h.bits, show s.storageOffset + (s.readOffset - s.storageOffset + i) = s.readOffset + i by
    omega]

lemma compact_content (h : Tracks A s) (hc : Content S A s) :
    Content S A s.compactConsumedPrefix := by
  have hst := h.storageLeRead
  rcases compactConsumedPrefix_cases s with heq | heq
  · rw [heq]
    exact hc
  rw [heq]
  intro i hi
  simp only [getElem?_drop] at hi ⊢
  have hplace : s.storageOffset + (s.readOffset - s.storageOffset + i) = s.readOffset + i := by
    omega
  have := hc (s.readOffset - s.storageOffset + i) (by rwa [hplace])
  rwa [hplace] at this

lemma compact_readOffset (s : RecvState) : s.compactConsumedPrefix.readOffset = s.readOffset := by
  rcases compactConsumedPrefix_cases s with heq | heq
  · rw [heq]
  · rw [heq]

lemma consume_ok (h : Tracks A s) {len : Nat} (hok : s.consume len = (.ok (), s')) :
    Tracks A s' ∧ (Content S A s → Content S A s') ∧ s'.readOffset = s.readOffset + len ∧
      s.readOffset + len ≤ s.contiguousEnd := by
  have hrd := h.readLeContiguous
  unfold consume at hok
  by_cases hzero : len = 0
  · rw [if_pos hzero] at hok
    simp only [Prod.mk.injEq, true_and] at hok
    subst hok
    exact ⟨h, fun hc => hc, by omega, by omega⟩
  rw [if_neg hzero] at hok
  obtain ⟨hshort, hok⟩ := of_guard hok nofun
  rw [length_available h] at *
  simp only [Prod.mk.injEq, true_and] at hok
  have hmoved : Tracks A { s with readOffset := s.readOffset + len } :=
    ⟨h.sameLength, Nat.le_trans h.storageLeRead (Nat.le_add_right _ _),
      (by show s.readOffset + len ≤ s.contiguousEnd; omega), h.bits, h.prefixIn, h.frontier,
      h.total, h.high, h.fits⟩
  rw [← hok]
  exact ⟨compact_tracks hmoved, fun hc => compact_content hmoved hc, compact_readOffset _, by omega⟩

end Calls

/-! ### Runs of a stream -/

inductive Op where
  | insert (frame : StreamFrame)
  | consume (len : Nat)

/-- What a call answers: the new positions of a frame, or the bytes that were read. -/
inductive Answer where
  | inserted (newly : Nat)
  | consumed (bytes : Bytes)
  | failed (error : Error)

def Answer.isFailure : Answer → Bool
  | .failed _ => true
  | _ => false

def step (s : RecvState) : Op → Answer × RecvState
  | .insert frame =>
    match s.insertTracked frame with
    | (.ok newly, s') => (.inserted newly, s')
    | (.error e, s') => (.failed e, s')
  | .consume len =>
    match s.consume len with
    | (.ok _, s') => (.consumed (s.available.take len), s')
    | (.error e, s') => (.failed e, s')

abbrev History := List (Event RecvState Op Answer)

/-- The offsets the frames of a history cover. -/
def covered : History → Finset Nat
  | [] => ∅
  | e :: rest =>
    match e.input with
    | .insert frame => span frame ∪ covered rest
    | .consume _ => covered rest

/-- The bytes a history has read, in order. -/
def bytesRead : History → Bytes
  | [] => []
  | e :: rest =>
    match e.output with
    | .consumed bytes => bytes ++ bytesRead rest
    | _ => bytesRead rest

/-- The sum of the counts the insertions of a history answered. -/
def newlyTotal : History → Nat
  | [] => 0
  | e :: rest =>
    match e.output with
    | .inserted newly => newly + newlyTotal rest
    | _ => newlyTotal rest

/-- A call made with a slice of `S`, or one that reads no more than there is, and no error. -/
def Proper (S : Bytes) (s : RecvState) (op : Op) : Prop :=
  (match op with
    | .insert frame => SliceOf S frame
    | .consume len => len ≤ s.available.length) ∧
  (s.step op).1.isFailure = false

instance (S : Bytes) (s : RecvState) (op : Op) : Decidable (Proper S s op) :=
  match op with
  | .insert frame => inferInstanceAs (Decidable (SliceOf S frame ∧ _ = false))
  | .consume len => inferInstanceAs (Decidable (len ≤ s.available.length ∧ _ = false))

lemma covered_append (h h' : History) : covered (h ++ h') = covered h ∪ covered h' := by
  induction h with
  | nil => simp [covered]
  | cons e rest ih =>
    simp only [cons_append, covered]
    cases e.input with
    | insert frame => simp only [ih, union_assoc]
    | consume len => exact ih

lemma bytesRead_append (h h' : History) : bytesRead (h ++ h') = bytesRead h ++ bytesRead h' := by
  induction h with
  | nil => rfl
  | cons e rest ih =>
    simp only [cons_append, bytesRead]
    cases e.output with
    | inserted n => exact ih
    | consumed bytes => simp only [ih, append_assoc]
    | failed err => exact ih

lemma newlyTotal_append (h h' : History) :
    newlyTotal (h ++ h') = newlyTotal h + newlyTotal h' := by
  induction h with
  | nil => simp [newlyTotal]
  | cons e rest ih =>
    simp only [cons_append, newlyTotal]
    cases e.output with
    | inserted n => simp only [ih, Nat.add_assoc]
    | consumed | failed => exact ih

/-- What a history of proper calls and the state it leads to have in common. -/
structure RunInv (S : Bytes) (h : History) (s : RecvState) : Prop where
  tracks : Tracks (covered h) s
  content : Content S (covered h) s
  inside : ∀ i ∈ covered h, i < S.length
  readSoFar : bytesRead h = S.take s.readOffset
  counted : newlyTotal h = (covered h).card

variable {h : History}

lemma RunInv.contiguous_le {S : Bytes} {s : RecvState} (hi : RunInv S h s) :
    s.contiguousEnd ≤ S.length := by
  by_contra hc
  have := hi.inside _ (hi.tracks.prefixIn (s.contiguousEnd - 1) (by omega))
  omega

lemma insert_runInv {S : Bytes} {s s' : RecvState} {frame : StreamFrame} {n : Nat}
    (hi : RunInv S h s) (hS : SliceOf S frame) (hins : s.insertTracked frame = (.ok n, s')) :
    RunInv S (h ++ [⟨s, .insert frame, .inserted n, s'⟩]) s' := by
  obtain ⟨htracks, hn⟩ := insertTracked_tracks hi.tracks hins
  have hcov : covered (h ++ [⟨s, .insert frame, .inserted n, s'⟩]) = covered h ∪ span frame := by
    simp [covered_append, covered]
  refine ⟨?_, ?_, ?_, ?_, ?_⟩
  · rw [hcov]
    exact htracks
  · rw [hcov]
    exact insertTracked_content hi.tracks hi.content hS hins
  · intro i hmem
    rw [hcov] at hmem
    rcases mem_union.mp hmem with hold | hspan
    · exact hi.inside i hold
    have := (mem_Ico.mp hspan).2
    have := hS.inBounds
    omega
  · rw [insertTracked_readOffset hins, ← hi.readSoFar]
    simp [bytesRead_append, bytesRead]
  have hcard : (covered h ∪ span frame).card = (covered h).card + (span frame \ covered h).card := by
    rw [← card_union_of_disjoint disjoint_sdiff, union_sdiff_self_eq_union]
  rw [hcov, hcard, newlyTotal_append, hi.counted, hn]
  rfl

lemma consume_runInv {S : Bytes} {s s' : RecvState} {len : Nat}
    (hi : RunInv S h s) (hok : s.consume len = (.ok (), s')) :
    RunInv S (h ++ [⟨s, .consume len, .consumed (s.available.take len), s'⟩]) s' := by
  obtain ⟨htracks, hcontent, hread, hle⟩ := consume_ok (S := S) hi.tracks hok
  have hcov : covered (h ++ [⟨s, .consume len, .consumed (s.available.take len), s'⟩])
      = covered h := by simp [covered_append, covered]
  refine ⟨?_, ?_, ?_, ?_, ?_⟩
  · rw [hcov]
    exact htracks
  · rw [hcov]
    exact hcontent hi.content
  · rw [hcov]
    exact hi.inside
  · -- The bytes read now are the next ones of `S`.
    have hnext : s.available.take len = (S.drop s.readOffset).take len := by
      rw [available_eq hi.tracks hi.content]
      unfold Lib.slice
      rw [drop_take, take_take, Nat.min_eq_left (by omega)]
    rw [bytesRead_append, hi.readSoFar, hread, take_add]
    simp [bytesRead, hnext]
  · rw [hcov, newlyTotal_append, hi.counted]
    rfl

lemma step_runInv {S : Bytes} {s : RecvState} {op : Op}
    (hi : RunInv S h s) (hp : Proper S s op) : RunInv S (h ++ [event step s op]) (step s op).2 := by
  obtain ⟨harg, hok⟩ := hp
  unfold event
  cases op with
  | insert frame =>
    cases hins : s.insertTracked frame with
    | mk r s' =>
      cases r with
      | error e => simp [step, hins, Answer.isFailure] at hok
      | ok n =>
        simp only [step, hins]
        exact insert_runInv hi harg hins
  | consume len =>
    cases hcons : s.consume len with
    | mk r s' =>
      cases r with
      | error e => simp [step, hcons, Answer.isFailure] at hok
      | ok u =>
        simp only [step, hcons]
        exact consume_runInv hi hcons

lemma init_runInv (S : Bytes) (streamId maxBuffered : Nat) :
    RunInv S [] (init streamId maxBuffered) :=
  ⟨init_tracks streamId maxBuffered, by intro i hi; simp [covered] at hi, by simp [covered],
    by simp [bytesRead, init], rfl⟩

/--
**Reassembly.**  After every run of slices of `S` and reads in which no call failed: what
was read is a prefix of `S`, what can be read now is the next slice of it, the contiguous
end is the longest prefix the frames cover, and the byte total counts the distinct offsets,
as do the answers of the insertions together.
-/
theorem frames_reassembled (S : Bytes) (streamId maxBuffered : Nat) (ops : List Op)
    (hrun : ∀ e ∈ trace step (init streamId maxBuffered) ops, Proper S e.pre e.input) :
    let h := trace step (init streamId maxBuffered) ops
    let s := exec step (init streamId maxBuffered) ops
    bytesRead h <+: S ∧
    (bytesRead h).length = s.readOffset ∧
    s.available = slice S s.readOffset s.contiguousEnd ∧
    IsGreatest {k | k ≤ S.length ∧ ∀ i, i < k → i ∈ covered h} s.contiguousEnd ∧
    s.receivedTotal = (covered h).card ∧ newlyTotal h = s.receivedTotal := by
  intro h s
  have hi : RunInv S h s :=
    trace_induction step (Proper S) (RunInv S) (init_runInv S streamId maxBuffered)
      (fun _ _ _ hi hp => step_runInv hi hp) ops hrun
  have hle := hi.contiguous_le
  refine ⟨?_, ?_, available_eq hi.tracks hi.content, ⟨⟨hle, hi.tracks.prefixIn⟩, ?_⟩,
    hi.tracks.total, ?_⟩
  · rw [hi.readSoFar]
    exact take_prefix _ _
  · rw [hi.readSoFar, length_take]
    have := hi.tracks.readLeContiguous
    omega
  · intro k hk
    by_contra hc
    exact hi.tracks.frontier (hk.2 _ (by omega))
  · rw [hi.counted, hi.tracks.total]

/-- The middle first, then the start, a read, and the end with FIN. -/
theorem frames_reassembled_out_of_order :
    let ops : List Op := [.insert ⟨0, 2, false, [3, 4]⟩, .insert ⟨0, 0, false, [1, 2, 3]⟩,
      .consume 3, .insert ⟨0, 3, true, [4, 5]⟩]
    bytesRead (trace step (init 0 16) ops) <+: [1, 2, 3, 4, 5] ∧
      newlyTotal (trace step (init 0 16) ops) = 5 := by
  intro ops
  obtain ⟨hbelow, -, -, -, -, hcount⟩ :=
    frames_reassembled [1, 2, 3, 4, 5] 0 16 ops (by decide)
  exact ⟨hbelow, hcount.trans (by decide)⟩

end RecvState

end Netz.Quic
