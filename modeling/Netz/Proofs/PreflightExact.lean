/-
The preflight of a packet refuses exactly what reassembly refuses.

`rejection` names the first check of a frame that fails, in terms of the bytes the stream
holds.  Both the stream and its shadow compute it, each from its own storage, so over any
list of frames they stop at the same frame with the same error and count the same offsets
before it.
-/
import Netz.Proofs.Preflight

namespace Netz.Quic

open Lib List Option

namespace RecvState

open Classical in
/-- The first check of a frame that fails. -/
noncomputable def rejection (s : RecvState) (frame : StreamFrame) : Option Error :=
  if frame.streamId ≠ s.streamId then some .wrongStream
  else if maxU64 < frame.offset + frame.data.length then some .invalidStreamRange
  else if exceedsFinalSize s.finalSize (frame.offset + frame.data.length) frame.fin then
    some .finalSizeMismatch
  else if s.storageOffset < frame.offset + frame.data.length ∧
      s.maxBuffered < frame.offset + frame.data.length - s.storageOffset then
    some .streamBufferTooLarge
  else if ¬Agrees s frame then some .conflictingStreamData
  else if frame.fin = true ∧ frame.offset + frame.data.length < s.highestReceivedEnd then
    some .finalSizeMismatch
  else none

variable {s : RecvState} {frame : StreamFrame}

lemma agrees_of_old
    (h : frame.offset + frame.data.length ≤ s.storageOffset) : Agrees s frame := by
  intro i hlo hhi
  omega

/-! ### What the comparisons find -/

lemma scanOverlap_agree (s : RecvState) (data : Bytes) (relativeOffset : Nat) :
    ∀ (remaining relative newly n : Nat),
      s.scanOverlap data relativeOffset remaining relative newly = some n →
      ∀ i, relative ≤ i → i < relative + remaining → s.received.getD i false = true →
        s.buffer.getD i 0 = data.getD (i - relativeOffset) 0 := by
  intro remaining
  induction remaining with
  | zero => omega
  | succ k ih =>
    intro relative newly n h i hlo hhi hbit
    unfold scanOverlap at h
    by_cases hset : s.received.getD relative false = true
    · rw [if_pos hset] at h
      obtain ⟨hbad, h⟩ := of_guard h (by simp)
      by_cases hi : i = relative
      · rw [hi]
        exact not_not.mp hbad
      · exact ih _ _ _ h i (by omega) (by omega) hbit
    rw [if_neg hset] at h
    by_cases hi : i = relative
    · rw [hi] at hbit
      exact absurd hbit hset
    · exact ih _ _ _ h i (by omega) (by omega) hbit

/-- A frame agrees when its retained part repeats every stored byte. -/
theorem agrees_of_relative (h : ∀ i, frame.offset - s.storageOffset ≤ i →
      i < frame.offset + frame.data.length - s.storageOffset → s.received.getD i false = true →
        s.buffer.getD i 0 = (s.retained frame).getD (i - (frame.offset - s.storageOffset)) 0) :
    Agrees s frame := by
  intro i hlo hhi b hb
  unfold byteAt at hb
  by_cases hbit : s.received.getD (i - s.storageOffset) false = true
  · rw [if_pos hbit, some.injEq] at hb
    have heq := h (i - s.storageOffset) (by omega) (by omega) hbit
    rw [retained_getD (by omega)] at heq
    have hi : s.storageOffset + (i - s.storageOffset) = i := by omega
    rw [hi] at heq
    rw [← hb, heq]
  · rw [if_neg hbit] at hb
    exact absurd hb (by simp)

lemma agrees_of_newlyReceived {n : Nat}
    (h : s.newlyReceived (s.retained frame) (frame.offset - s.storageOffset)
      (frame.offset + frame.data.length - s.storageOffset) = some n) : Agrees s frame := by
  apply agrees_of_relative
  intro i hlo hhi hbit
  have hlt : i < s.received.length := by
    by_contra hge
    rw [getD_received, getElem?_eq_none (by omega)] at hbit
    exact absurd hbit (by simp)
  unfold newlyReceived at h
  rw [if_neg (by omega)] at h
  cases hscan : s.scanOverlap (s.retained frame) (frame.offset - s.storageOffset)
      (min (frame.offset + frame.data.length - s.storageOffset) s.received.length
        - (frame.offset - s.storageOffset)) (frame.offset - s.storageOffset) 0 with
  | none => simp [hscan] at h
  | some newly => exact scanOverlap_agree s _ _ _ _ _ _ hscan i hlo (by omega) hbit

lemma agrees_of_slice (h : slice s.buffer (frame.offset - s.storageOffset)
      (frame.offset + frame.data.length - s.storageOffset) = s.retained frame) :
    Agrees s frame := by
  apply agrees_of_relative
  intro i hlo hhi _
  have hat := congrArg (fun l => l[i - (frame.offset - s.storageOffset)]?) h
  simp only [getElem?_slice] at hat
  have hi : frame.offset - s.storageOffset + (i - (frame.offset - s.storageOffset)) = i := by omega
  rw [hi, if_pos hhi] at hat
  rw [getD_eq_getElem?_getD, getD_eq_getElem?_getD, hat]

/-! ### The stream computes the rejection -/

section Stream

variable {A : Finset Nat} {s : RecvState} {frame : StreamFrame}

lemma acceptKnown_mismatch (s : RecvState) {stop : Nat} {fin : Bool}
    (h : fin = true ∧ stop < s.highestReceivedEnd) :
    s.acceptKnown stop fin = (.error .finalSizeMismatch, s) := by simp [h, acceptKnown]

/-- A frame within the buffer limit: its bytes are compared before its FIN is. -/
theorem insertRetained_error (h : Tracks A s)
    (hpast : s.storageOffset < frame.offset + frame.data.length)
    (hfits : frame.offset + frame.data.length ≤ maxU64)
    (hroom : frame.offset + frame.data.length - s.storageOffset ≤ s.maxBuffered) :
    (¬Agrees s frame → s.insertRetained frame (frame.offset + frame.data.length) =
        (.error .conflictingStreamData, s)) ∧
      (Agrees s frame → frame.fin = true ∧ frame.offset + frame.data.length < s.highestReceivedEnd →
        s.insertRetained frame (frame.offset + frame.data.length) =
          (.error .finalSizeMismatch, s)) := by
  have hlen := length_retained hpast
  have hskip : max frame.offset s.storageOffset - frame.offset =
      s.storageOffset - frame.offset := by omega
  have hrel : max frame.offset s.storageOffset - s.storageOffset =
      frame.offset - s.storageOffset := by omega
  have hdata : frame.data.drop (s.storageOffset - frame.offset) = s.retained frame := rfl
  unfold insertRetained
  simp only [hskip, hrel, hdata]
  rw [checkedAdd_eq_some.mpr ⟨hlen.symm, by omega⟩]
  simp only
  rw [if_neg (by omega)]
  by_cases hknown : frame.offset + frame.data.length - s.storageOffset ≤ s.received.length ∧
      frame.offset + frame.data.length ≤ s.contiguousEnd
  · rw [if_pos hknown]
    constructor
    · intro hbad
      rw [if_pos (fun heq => hbad (agrees_of_slice heq))]
    intro hagree hfin
    rw [if_neg (not_not.mpr (slice_eq_of_agree h hagree hpast hknown))]
    exact acceptKnown_mismatch s hfin
  rw [if_neg hknown]
  constructor
  · intro hbad
    cases hnew : s.newlyReceived (s.retained frame) (frame.offset - s.storageOffset)
        (frame.offset + frame.data.length - s.storageOffset) with
    | none => rfl
    | some n => exact absurd (agrees_of_newlyReceived hnew) hbad
  intro hagree hfin
  obtain ⟨n, hnew⟩ := newlyReceived_of_agree hagree hpast
  simp [hnew, hfin]

/-- **A rejected frame is refused for that reason.** -/
theorem insertTracked_rejected (h : Tracks A s) {e : Error} (hrej : rejection s frame = some e) :
    s.insertTracked frame = (.error e, s) := by
  unfold rejection at hrej
  unfold insertTracked
  by_cases hid : frame.streamId ≠ s.streamId
  · rw [if_pos hid, some.injEq] at hrej
    rw [if_pos hid, hrej]
  rw [if_neg hid] at hrej ⊢
  by_cases hfits : maxU64 < frame.offset + frame.data.length
  · have hnone : checkedAdd frame.offset frame.data.length = none := by
      unfold checkedAdd
      rw [if_neg (by omega)]
    rw [if_pos hfits, some.injEq] at hrej
    rw [hnone, ← hrej]
  rw [if_neg hfits] at hrej
  rw [checkedAdd_eq_some.mpr ⟨rfl, by omega⟩]
  simp only
  by_cases hfinal : exceedsFinalSize s.finalSize (frame.offset + frame.data.length) frame.fin = true
  · rw [if_pos hfinal, some.injEq] at hrej
    rw [if_pos hfinal, hrej]
  rw [if_neg hfinal] at hrej ⊢
  by_cases hold : frame.offset + frame.data.length ≤ s.storageOffset
  · rw [if_neg (by omega), if_neg (not_not.mpr (agrees_of_old hold))] at hrej
    rw [if_pos hold]
    by_cases hfin : frame.fin = true ∧ frame.offset + frame.data.length < s.highestReceivedEnd
    · rw [if_pos hfin, some.injEq] at hrej
      rw [acceptKnown_mismatch s hfin, hrej]
    · simp [hfin] at hrej
  rw [if_neg hold]
  by_cases hroom : s.maxBuffered < frame.offset + frame.data.length - s.storageOffset
  · rw [if_pos ⟨by omega, hroom⟩, some.injEq] at hrej
    have hlen : frame.offset - s.storageOffset + (s.retained frame).length =
        frame.offset + frame.data.length - s.storageOffset :=
      length_retained (not_le.mp hold)
    have hskip : max frame.offset s.storageOffset - frame.offset =
        s.storageOffset - frame.offset := by omega
    have hrel : max frame.offset s.storageOffset - s.storageOffset =
        frame.offset - s.storageOffset := by omega
    have hdata : frame.data.drop (s.storageOffset - frame.offset) = s.retained frame := rfl
    unfold insertRetained
    simp only [hskip, hrel, hdata]
    rw [checkedAdd_eq_some.mpr ⟨hlen.symm, by omega⟩]
    simp [hroom, hrej]
  rw [if_neg (by omega)] at hrej
  have hpast : s.storageOffset < frame.offset + frame.data.length := not_le.mp hold
  obtain ⟨hconflict, hmismatch⟩ := insertRetained_error h hpast (by omega) (by omega)
  by_cases hagree : Agrees s frame
  · rw [if_neg (not_not.mpr hagree)] at hrej
    by_cases hfin : frame.fin = true ∧ frame.offset + frame.data.length < s.highestReceivedEnd
    · rw [if_pos hfin, some.injEq] at hrej
      rw [hmismatch hagree hfin, hrej]
    · simp [hfin] at hrej
  · rw [if_pos hagree, some.injEq] at hrej
    rw [hconflict hagree, hrej]

lemma insertTracked_accepted (h : Tracks A s) (hrej : rejection s frame = none) :
    ∃ n s', s.insertTracked frame = (.ok n, s') := by
  unfold rejection at hrej
  obtain ⟨hid, hrej⟩ := of_guard hrej nofun
  obtain ⟨hfits, hrej⟩ := of_guard hrej nofun
  obtain ⟨hfinal, hrej⟩ := of_guard hrej nofun
  obtain ⟨hroom, hrej⟩ := of_guard hrej nofun
  by_cases hagree : Agrees s frame
  · rw [if_neg (not_not.mpr hagree)] at hrej
    obtain ⟨hfin, hrej⟩ := of_guard hrej nofun
    refine insertTracked_of_agree h (not_not.mp hid) (by omega) (by simpa using hfinal) ?_ ?_
      hagree
    · intro hf
      by_contra hc
      exact hfin ⟨hf, by omega⟩
    · omega
  · simp [hagree] at hrej

end Stream

/-! ### So does the shadow -/

namespace Preflight

lemma scanFrame_of_agree {p : Preflight} {pending : List StreamFrame} {frame : StreamFrame} :
    ∀ (remaining absolute newly : Nat),
      (∀ i, absolute ≤ i → i < absolute + remaining → ∀ b, p.byteAt pending i = some b →
        b = frameByte frame i) →
      ∃ n, p.scanFrame pending frame remaining absolute newly = some n := by
  intro remaining
  induction remaining with
  | zero =>
    intro absolute newly _
    exact ⟨newly, rfl⟩
  | succ k ih =>
    intro absolute newly hagree
    have hrest := fun newly => ih (absolute + 1) newly
      (fun i hlo hhi => hagree i (by omega) (by omega))
    have hfirst := hagree absolute le_rfl (by omega)
    unfold byteAt frameByte at hfirst
    unfold scanFrame
    by_cases hbit : p.received.getD (absolute - p.storageOffset) false = true
    · rw [if_pos hbit] at hfirst ⊢
      rw [if_neg (not_not.mpr (hfirst _ rfl))]
      exact hrest newly
    rw [if_neg hbit] at hfirst ⊢
    cases hpend : pendingByte p.streamId absolute pending with
    | none => exact hrest (newly + 1)
    | some byte =>
      simp only
      rw [if_neg (not_not.mpr (hfirst byte hpend))]
      exact hrest newly

end Preflight

section Shadowed

variable {p : Preflight} {pending : List StreamFrame} {s : RecvState} {frame : StreamFrame}

/-- The bytes the shadow compares a frame with are those of the stream. -/
theorem Shadow.scan_none_iff (h : Shadow p pending s)
    (hpast : s.storageOffset < frame.offset + frame.data.length) :
    p.scanFrame pending frame (frame.offset + frame.data.length - max frame.offset p.storageOffset)
        (max frame.offset p.storageOffset) 0 = none ↔ ¬Agrees s frame := by
  have hstorage := h.storage
  have hend : max frame.offset s.storageOffset
      + (frame.offset + frame.data.length - max frame.offset s.storageOffset)
      = frame.offset + frame.data.length := by omega
  rw [hstorage]
  constructor
  · intro hnone hagree
    have hbytes : ∀ i, max frame.offset s.storageOffset ≤ i → i < max frame.offset s.storageOffset
          + (frame.offset + frame.data.length - max frame.offset s.storageOffset) →
        ∀ b, p.byteAt pending i = some b → b = frameByte frame i := by
      intro i hlo hhi b hb
      rw [hend] at hhi
      rw [h.bytes i (by omega)] at hb
      exact hagree i hlo hhi b hb
    obtain ⟨n, hn⟩ := Preflight.scanFrame_of_agree _ _ 0 hbytes
    simp [hnone] at hn
  intro hbad
  cases hscan : p.scanFrame pending frame
      (frame.offset + frame.data.length - max frame.offset s.storageOffset)
      (max frame.offset s.storageOffset) 0 with
  | none => rfl
  | some n =>
    obtain ⟨hall, -⟩ := Preflight.scanFrame_some _ _ _ _ hscan
    exfalso
    apply hbad
    intro i hlo hhi b hb
    rw [← h.bytes i (by omega)] at hb
    exact hall i hlo (by omega) b hb

/-- **The shadow answers a frame with the rejection of the stream, or accepts it.** -/
theorem Shadow.insertTracked_outcome (h : Shadow p pending s) (hfinalEq : p.finalSize = s.finalSize) :
    (∀ e, rejection s frame = some e → p.insertTracked pending frame = .error e) ∧
      (rejection s frame = none → ∃ accepted, p.insertTracked pending frame = .ok accepted) := by
  have hstorage := h.storage
  have hmax := h.maxBuffered
  have hhigh := h.high
  unfold rejection Preflight.insertTracked
  rw [h.streamId, hfinalEq]
  by_cases hid : frame.streamId ≠ s.streamId
  · simp [hid]
  rw [if_neg hid, if_neg hid]
  by_cases hfits : maxU64 < frame.offset + frame.data.length
  · have hnone : checkedAdd frame.offset frame.data.length = none := by
      unfold checkedAdd
      rw [if_neg (by omega)]
    simp [hfits, hnone]
  rw [if_neg hfits, checkedAdd_eq_some.mpr ⟨rfl, by omega⟩]
  simp only
  by_cases hfinal : exceedsFinalSize s.finalSize (frame.offset + frame.data.length) frame.fin = true
  · simp [hfinal]
  rw [if_neg hfinal, if_neg hfinal]
  by_cases hold : frame.offset + frame.data.length ≤ p.storageOffset
  · rw [if_pos hold, if_neg (by omega), if_neg (not_not.mpr (agrees_of_old (by omega))), hhigh]
    by_cases hfin : frame.fin = true ∧ frame.offset + frame.data.length < s.highestReceivedEnd
    · simp [hfin]
    · simp [hfin]
  rw [if_neg hold]
  by_cases hroom : p.maxBuffered < frame.offset + frame.data.length - p.storageOffset
  · rw [if_pos hroom, if_pos ⟨by omega, by omega⟩]
    exact ⟨fun e he => by rw [some.inj he], fun hn => absurd hn (by simp)⟩
  rw [if_neg hroom, if_neg (by omega)]
  have hpast : s.storageOffset < frame.offset + frame.data.length := by omega
  have hscan := h.scan_none_iff hpast
  by_cases hagree : Agrees s frame
  · rw [if_neg (not_not.mpr hagree)]
    obtain ⟨n, hn⟩ := ne_none_iff_exists'.mp (fun hnone => hscan.mp hnone hagree)
    rw [hn, hhigh]
    by_cases hfin : frame.fin = true ∧ frame.offset + frame.data.length < s.highestReceivedEnd
    · simp [hfin]
    · simp [hfin]
  · simp [hagree, hscan.mpr hagree]

end Shadowed

/-! ### Streams that were built by calls -/

variable {s : RecvState}

lemma insertTracked_mono {A : Finset Nat} (h : Tracks A s)
    (frame : StreamFrame) : ∃ A', Tracks A' (s.insertTracked frame).2 := by
  cases hrej : rejection s frame with
  | some e =>
    rw [insertTracked_rejected h hrej]
    exact ⟨A, h⟩
  | none =>
    obtain ⟨n, s', hins⟩ := insertTracked_accepted h hrej
    rw [hins]
    exact ⟨_, (insertTracked_tracks h hins).1⟩

lemma consume_mono {A : Finset Nat} (h : Tracks A s) (len : Nat) :
    Tracks A (s.consume len).2 := by
  cases hcons : s.consume len with
  | mk result s' =>
    cases result with
    | ok u =>
      obtain ⟨hw, -, -, -⟩ := @consume_ok [] A s s' h len hcons
      exact hw
    | error e =>
      unfold consume at hcons
      obtain ⟨-, hcons⟩ := of_guard hcons nofun
      by_cases hshort : s.available.length < len
      · rw [if_pos hshort] at hcons
        rw [← (Prod.mk.inj hcons).2]
        exact h
      · simp [hshort] at hcons

lemma step_tracks (h : ∃ A, Tracks A s) (op : Op) : ∃ A, Tracks A (s.step op).2 := by
  obtain ⟨A, hA⟩ := h
  cases op with
  | insert frame =>
    obtain ⟨A', hA'⟩ := insertTracked_mono hA frame
    have hstep : (s.step (.insert frame)).2 = (s.insertTracked frame).2 := by
      cases hins : s.insertTracked frame with
      | mk result s' => cases result <;> simp only [step, hins]
    rw [hstep]
    exact ⟨A', hA'⟩
  | consume len =>
    have hstep : (s.step (.consume len)).2 = (s.consume len).2 := by
      cases hcons : s.consume len with
      | mk result s' => cases result <;> simp only [step, hcons]
    rw [hstep]
    exact ⟨A, consume_mono hA len⟩

lemma reachable_tracks (streamId maxBuffered : Nat) (ops : List Op) :
    ∃ A, Tracks A (exec step (init streamId maxBuffered) ops) :=
  exec_induction step (fun s => ∃ A, Tracks A s) ⟨∅, init_tracks streamId maxBuffered⟩
    (fun _ op h => step_tracks h op) ops

/-! ### The frames of a packet -/

/-- What inserting frames one after another reports: the counts of the accepted frames, and
the error of the first refused one. -/
def insertAll (s : RecvState) : List StreamFrame → List Nat × Option Error
  | [] => ([], none)
  | frame :: rest =>
    match s.insertTracked frame with
    | (.error e, _) => ([], some e)
    | (.ok newly, s') => (newly :: (s'.insertAll rest).1, (s'.insertAll rest).2)

/-- The same over a shadow.  The frames of the packet that belong to other streams are kept
in the same list of earlier frames. -/
def Preflight.insertAll (p : Preflight) (pending : List StreamFrame) :
    List StreamFrame → List Nat × Option Error
  | [] => ([], none)
  | frame :: rest =>
    if frame.streamId ≠ p.streamId then p.insertAll (pending ++ [frame]) rest
    else
      match p.insertTracked pending frame with
      | .error e => ([], some e)
      | .ok (newly, p', pending') =>
        (newly :: (p'.insertAll pending' rest).1, (p'.insertAll pending' rest).2)

/-- The frames of a packet that are for the stream. -/
def framesFor (streamId : Nat) (packet : List StreamFrame) : List StreamFrame :=
  packet.filter (fun frame => frame.streamId == streamId)

lemma not_exceeds_of_accepted {frame : StreamFrame} (h : rejection s frame = none) :
    exceedsFinalSize s.finalSize (frame.offset + frame.data.length) frame.fin = false := by
  by_contra hex
  unfold rejection at h
  obtain ⟨-, h⟩ := of_guard h nofun
  obtain ⟨hfits, h⟩ := of_guard h nofun
  rw [if_pos (by simpa using hex)] at h
  exact absurd h (by simp)

/-- One frame: the shadow and the stream answer alike, and stay alike. -/
theorem Shadow.insertTracked_agrees {A : Finset Nat} {p : Preflight}
    {pending : List StreamFrame} (frame : StreamFrame) (hw : Tracks A s)
    (h : Shadow p pending s) (hfinal : p.finalSize = s.finalSize) :
    (∃ e, p.insertTracked pending frame = .error e ∧ s.insertTracked frame = (.error e, s)) ∨
      ∃ n p' pending' s' A', p.insertTracked pending frame = .ok (n, p', pending') ∧
        s.insertTracked frame = (.ok n, s') ∧ Tracks A' s' ∧ Shadow p' pending' s' ∧
        p'.finalSize = s'.finalSize := by
  have houtcome : (∀ e, rejection s frame = some e → p.insertTracked pending frame = .error e) ∧
      (rejection s frame = none → ∃ accepted, p.insertTracked pending frame = .ok accepted) :=
    h.insertTracked_outcome hfinal
  obtain ⟨hreject, hacc⟩ := houtcome
  cases hrej : rejection s frame with
  | some e => exact .inl ⟨e, hreject e hrej, insertTracked_rejected hw hrej⟩
  | none =>
    obtain ⟨⟨n, p', pending'⟩, hok⟩ := hacc hrej
    have hnotFinal := not_exceeds_of_accepted hrej
    obtain ⟨-, -, hfinal', s', hins, hshadow⟩ := h.insertTracked hw hnotFinal hok
    obtain ⟨-, hsFinal, -⟩ := insertTracked_final hw hins
    refine .inr ⟨n, p', pending', s', _, hok, hins, (insertTracked_tracks hw hins).1, hshadow, ?_⟩
    rw [hfinal', hsFinal, hfinal]

lemma Shadow.insertAll_eq (packet : List StreamFrame) :
    ∀ {A : Finset Nat} {p : Preflight} {pending : List StreamFrame} {s : RecvState},
      Tracks A s → Shadow p pending s → p.finalSize = s.finalSize →
      p.insertAll pending packet = s.insertAll (framesFor s.streamId packet) := by
  induction packet with
  | nil =>
    intro A p pending s _ _ _
    rfl
  | cons frame rest ih =>
    intro A p pending s hw h hfinal
    unfold Preflight.insertAll
    by_cases hid : frame.streamId ≠ p.streamId
    · have hskip : (frame.streamId == s.streamId) = false := by
        rw [← h.streamId]
        simpa using hid
      have hrest : framesFor s.streamId (frame :: rest) = framesFor s.streamId rest :=
        filter_cons_of_neg (by simp [hskip])
      rw [if_pos hid, hrest]
      exact ih hw (h.append_ne hid) hfinal
    have hkeep : (frame.streamId == s.streamId) = true := by
      rw [← h.streamId]
      simpa using hid
    have hcons : framesFor s.streamId (frame :: rest) =
        frame :: framesFor s.streamId rest := filter_cons_of_pos hkeep
    rw [if_neg hid, hcons]
    unfold RecvState.insertAll
    rcases h.insertTracked_agrees frame hw hfinal with
      ⟨e, hp, hs⟩ | ⟨n, p', pending', s', A', hp, hs, hw', hshadow, hfinal'⟩
    · rw [hp, hs]
    have hid' : s'.streamId = s.streamId := (insertTracked_final hw hs).1
    have hrest := ih hw' hshadow hfinal'
    simp [hid', hp, hs, hrest]

/-- **The preflight of a packet is its reassembly.**  Whatever calls built the stream, the
shadow accepts and refuses the stream's frames of a packet as inserting them in order does:
the same counts, up to the same frame, with the same error. -/
theorem preflight_equals_reassembly (streamId maxBuffered : Nat) (ops : List Op)
    (packet : List StreamFrame) :
    (Preflight.init (exec step (init streamId maxBuffered) ops)).insertAll [] packet =
      (exec step (init streamId maxBuffered) ops).insertAll
        (framesFor (exec step (init streamId maxBuffered) ops).streamId packet) := by
  obtain ⟨A, hA⟩ := reachable_tracks streamId maxBuffered ops
  have hshadow : Shadow (Preflight.init (exec step (init streamId maxBuffered) ops)) []
      (exec step (init streamId maxBuffered) ops) := Shadow.init (by simp)
  exact hshadow.insertAll_eq packet hA rfl

end RecvState

end Netz.Quic
