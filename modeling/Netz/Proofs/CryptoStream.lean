/-
Reassembly: a failed insertion, and CRYPTO bytes split and put together again.

An insertion that fails leaves everything as it was, except where the first of the two arrays has
grown and the second is refused: then the two have different lengths, and the next insertion of
the same frame runs past the shorter one.

For the reassembler one invariant carries the round trip, `Follows`: what is marked received is a
byte of the one stream all frames are taken from, and `contiguousEnd` is the first byte missing.
-/
import Netz.Proofs.FrameRoundTrip
import Netz.Quic.CryptoStream

namespace Netz.Quic

open Lib Reassembler List RecvState

/-! ### A failed insertion -/

lemma growThenStore_error {ε σ α : Type} {growth : Growth} {bufferLen receivedLen stop : Nat}
    {s halfGrown stored s' : σ} {result : α} {e : InsertError ε}
    (h : growThenStore growth bufferLen receivedLen stop s halfGrown result stored
      = (.error e, s')) : s' = s ∨ growth = .receivedRefused ∧ bufferLen < stop := by
  unfold growThenStore at h
  split at h
  next hlt =>
    cases growth <;> simp at h
    · exact .inl h.2.symm
    · exact .inr ⟨rfl, hlt⟩
  next =>
    split at h <;> simp at h
    exact .inl h.2.symm

lemma growThenStore_granted {ε σ α : Type} {len stop : Nat} {s halfGrown stored : σ}
    {result : α} {undefined : List Bool} :
    (growThenStore (.granted undefined) len len stop s halfGrown result stored
      : Except (InsertError ε) α × σ) = (.ok result, stored) := by simp [growThenStore]

namespace RecvState

/-- A frame that passes every check and ends past the stored bytes. -/
structure Grows (s : RecvState) (frame : StreamFrame) : Prop where
  stream : frame.streamId = s.streamId
  range : frame.offset + frame.data.length ≤ maxU64
  final : exceedsFinalSize s.finalSize (frame.offset + frame.data.length) frame.fin = false
  room : frame.offset + frame.data.length - s.storageOffset ≤ s.maxBuffered
  longer : s.buffer.length < frame.offset + frame.data.length - s.storageOffset
  agrees : s.newlyReceived (frame.data.drop (max frame.offset s.storageOffset - frame.offset))
    (max frame.offset s.storageOffset - s.storageOffset)
    (frame.offset + frame.data.length - s.storageOffset) ≠ none
  size : ¬ (frame.fin = true ∧ frame.offset + frame.data.length < s.highestReceivedEnd)

/-- Nothing that can be seen of a stream, now or later, tells the two states apart. -/
structure Unchanged (s s' : RecvState) : Prop where
  lengths : s'.buffer.length = s'.received.length
  available : s'.available = s.available
  contiguous : s'.contiguousEnd = s.contiguousEnd
  final : s'.finalSize = s.finalSize
  total : s'.receivedTotal = s.receivedTotal
  later : ∀ calls, answers call s' calls = answers call s calls

variable {s s' : RecvState} {frame : StreamFrame} {growth : Growth}

lemma acceptKnown_error {absoluteEnd : Nat} {fin : Bool} {e : InsertError Error}
    (h : ((s.acceptKnown absoluteEnd fin).1.mapError .invalid, (s.acceptKnown absoluteEnd fin).2)
      = (.error e, s')) : s' = s := by
  unfold acceptKnown at h
  split at h <;> simp [Except.mapError] at h
  exact h.2.symm

lemma retained_end (hlt : s.storageOffset < frame.offset + frame.data.length) :
    max frame.offset s.storageOffset - s.storageOffset
        + (frame.data.drop (max frame.offset s.storageOffset - frame.offset)).length
      = frame.offset + frame.data.length - s.storageOffset := by
  rw [length_drop]
  omega

lemma insertTrackedIn_error {e : InsertError Error}
    (h : s.insertTrackedIn growth frame = (.error e, s')) :
    s' = s ∨ growth = .receivedRefused ∧ s.Grows frame := by
  unfold insertTrackedIn checkedAdd at h
  split at h
  · cases h
    exact .inl rfl
  next hstream =>
    split at h
    · cases h
      exact .inl rfl
    next absoluteEnd hend =>
      split at hend <;> cases hend
      next hrange =>
        split at h
        · cases h
          exact .inl rfl
        next hfinal =>
          split at h
          · exact .inl (acceptKnown_error h)
          next hpast =>
            unfold insertRetainedIn checkedAdd at h
            simp only [retained_end (not_le.mp hpast)] at h
            rw [if_pos (by omega)] at h
            dsimp only at h
            split at h
            · cases h
              exact .inl rfl
            next hroom =>
              split at h
              · split at h
                · cases h
                  exact .inl rfl
                · exact .inl (acceptKnown_error h)
              split at h
              · cases h
                exact .inl rfl
              next newly hnewly =>
                split at h
                · cases h
                  exact .inl rfl
                next hsize =>
                  rcases growThenStore_error h with rfl | ⟨hgrowth, hlonger⟩
                  · exact .inl rfl
                  · exact .inr ⟨hgrowth, ⟨not_not.mp hstream, hrange, by simpa using hfinal,
                      not_lt.mp hroom, hlonger, by simp [hnewly], hsize⟩⟩

lemma insertTrackedIn_halfGrown (hlen : s.buffer.length = s.received.length) (h : s.Grows frame) :
    s.insertTrackedIn .receivedRefused frame = (.error .outOfMemory, { s with
          buffer := resize s.buffer (frame.offset + frame.data.length - s.storageOffset) 0 }) := by
  have hlonger := h.longer
  have hrange := h.range
  obtain ⟨newly, hnewly⟩ := Option.ne_none_iff_exists'.mp h.agrees
  unfold insertTrackedIn checkedAdd
  rw [if_neg (not_not.mpr h.stream), if_pos h.range]
  dsimp only
  rw [if_neg (by simp [h.final]), if_neg (by omega)]
  unfold insertRetainedIn checkedAdd
  simp only [retained_end (show s.storageOffset < frame.offset + frame.data.length by omega)]
  rw [if_pos (by omega)]
  dsimp only
  rw [if_neg (not_lt.mpr h.room), if_neg (by omega), hnewly]
  simp [h.size, growThenStore, hlonger]

/-- A failed insertion changes nothing, unless the second growth is what failed. -/
theorem insertTrackedIn_atomic_iff (hlen : s.buffer.length = s.received.length) :
    (∀ e s', s.insertTrackedIn growth frame = (.error e, s') → s.Unchanged s') ↔
      ¬ (growth = .receivedRefused ∧ s.Grows frame) := by
  constructor
  · rintro h ⟨rfl, hgrows⟩
    have hlengths := (h _ _ (insertTrackedIn_halfGrown hlen hgrows)).lengths
    have hlonger := hgrows.longer
    simp only [length_resize] at hlengths hlonger
    omega
  intro hnot e s' herror
  rcases insertTrackedIn_error herror with rfl | hhalf
  · exact ⟨hlen, rfl, rfl, rfl, rfl, fun _ => rfl⟩
  · exact absurd hhalf hnot

end RecvState

namespace Reassembler

/-- A frame that passes every check and ends past the stored bytes. -/
structure Grows (r : Reassembler) (frame : CryptoFrame) : Prop where
  range : frame.offset + frame.data.length ≤ maxU64
  room : frame.offset + frame.data.length ≤ r.maxBuffered
  longer : r.buffer.length < frame.offset + frame.data.length
  data : frame.data.length ≠ 0
  agrees : r.conflicts frame.offset frame.data = false

structure Unchanged (r r' : Reassembler) : Prop where
  lengths : r'.buffer.length = r'.received.length
  available : r'.available = r.available
  contiguous : r'.contiguousEnd = r.contiguousEnd
  later : ∀ ops, answers step r' ops = answers step r ops

variable {r r' : Reassembler} {frame : CryptoFrame} {growth : Growth}

lemma insert_error {e : InsertError CryptoError} (h : r.insert growth frame = (.error e, r')) :
    r' = r ∨ growth = .receivedRefused ∧ r.Grows frame := by
  unfold insert checkedAdd at h
  split at h
  · cases h
  next hdata =>
    split at h
    · cases h
      exact .inl rfl
    next stop hstop =>
      split at hstop <;> cases hstop
      next hrange =>
        split at h
        · cases h
          exact .inl rfl
        next hroom =>
          split at h
          · split at h <;> cases h
            exact .inl rfl
          split at h
          · cases h
            exact .inl rfl
          next hagrees =>
            rcases growThenStore_error h with rfl | ⟨hgrowth, hlonger⟩
            · exact .inl rfl
            · exact .inr ⟨hgrowth, hrange, not_lt.mp hroom, hlonger, hdata,
                by simpa using hagrees⟩

lemma insert_halfGrown (hlen : r.buffer.length = r.received.length) (h : r.Grows frame) :
    r.insert .receivedRefused frame = (.error .outOfMemory, { r with
      buffer := resize r.buffer (frame.offset + frame.data.length) 0 }) := by
  have hlonger := h.longer
  unfold insert checkedAdd
  rw [if_neg h.data, if_pos h.range]
  dsimp only
  rw [if_neg (not_lt.mpr h.room), if_neg (by omega), if_neg (by simp [h.agrees]),
    growThenStore, if_pos hlonger]

lemma insert_atomic_iff (hlen : r.buffer.length = r.received.length) :
    (∀ e r', r.insert growth frame = (.error e, r') → r.Unchanged r') ↔
      ¬ (growth = .receivedRefused ∧ r.Grows frame) := by
  constructor
  · rintro h ⟨rfl, hgrows⟩
    have hlengths := (h _ _ (insert_halfGrown hlen hgrows)).lengths
    have hlonger := hgrows.longer
    simp only [length_resize] at hlengths hlonger
    omega
  intro hnot e r' herror
  rcases insert_error herror with rfl | hhalf
  · exact ⟨hlen, rfl, rfl, fun _ => rfl⟩
  · exact absurd hhalf hnot

end Reassembler

/-- **A failed insertion leaves a stream, and a CRYPTO stream, as it was, exactly when it is not
the second growth that was refused.** -/
theorem failed_insertions_change_nothing_iff (growth : Growth) (s : RecvState) (r : Reassembler)
    (stream : StreamFrame) (crypto : CryptoFrame) (hs : s.buffer.length = s.received.length)
    (hr : r.buffer.length = r.received.length) :
    ((∀ e s', s.insertTrackedIn growth stream = (.error e, s') → s.Unchanged s') ↔
        ¬ (growth = .receivedRefused ∧ s.Grows stream)) ∧
      ((∀ e r', r.insert growth crypto = (.error e, r') → r.Unchanged r') ↔
        ¬ (growth = .receivedRefused ∧ r.Grows crypto)) :=
  ⟨insertTrackedIn_atomic_iff hs, insert_atomic_iff hr⟩

/-- Two empty streams, and a first frame for which the buffer is refused. -/
theorem failed_insertions_change_nothing_empty :
    (init 0 8).Unchanged
        ((init 0 8).insertTrackedIn .bufferRefused ⟨0, 0, true, [7]⟩).2 ∧
      ({ maxBuffered := 8 } : Reassembler).Unchanged
        (({ maxBuffered := 8 } : Reassembler).insert .bufferRefused ⟨0, [7]⟩).2 := by
  obtain ⟨hs, hr⟩ := failed_insertions_change_nothing_iff .bufferRefused (init 0 8)
    { maxBuffered := 8 } ⟨0, 0, true, [7]⟩ ⟨0, [7]⟩ rfl rfl
  exact ⟨hs.mpr (fun h => nomatch h.1) .outOfMemory _ rfl,
    hr.mpr (fun h => nomatch h.1) .outOfMemory _ rfl⟩

/-- The same frame again, when memory is back, runs past the bitmap. -/
theorem refused_bitmap_breaks_insertions :
    insertTrackedIn .receivedRefused (init 0 8) ⟨0, 0, true, [7]⟩
        = (.error .outOfMemory, { init 0 8 with buffer := [0] }) ∧
      (insertTrackedIn .granted { init 0 8 with buffer := [0] }
        ⟨0, 0, true, [7]⟩).1 = .error .outOfBounds ∧
      insert .receivedRefused { maxBuffered := 8 } ⟨0, [7]⟩
        = (.error .outOfMemory, { buffer := [0], maxBuffered := 8 }) ∧
      (insert .granted { buffer := [0], maxBuffered := 8 } ⟨0, [7]⟩).1
        = .error .outOfBounds := by decide

/-! ### Frames of one stream -/

/-- The bytes of the frame are those of the stream at its offset. -/
def CryptoFrame.Of (stream : Bytes) (frame : CryptoFrame) : Prop :=
  frame.data <+: stream.drop frame.offset

/-- The frame covers an offset. -/
def CryptoFrame.Covers (frame : CryptoFrame) (p : Nat) : Prop :=
  frame.offset ≤ p ∧ p < frame.offset + frame.data.length

instance (frame : CryptoFrame) (p : Nat) : Decidable (frame.Covers p) :=
  inferInstanceAs (Decidable (_ ∧ _))

namespace CryptoFrame

variable {stream : Bytes} {frame : CryptoFrame} {p : Nat}

lemma Of.get (h : frame.Of stream) (hp : frame.Covers p) :
    frame.data[p - frame.offset]? = stream[p]? := by
  obtain ⟨rest, hrest⟩ := h
  have hdrop : (stream.drop frame.offset)[p - frame.offset]? = stream[p]? := by
    rw [getElem?_drop, Nat.add_sub_cancel' hp.1]
  rw [← hdrop, ← hrest, getElem?_append_left (by obtain ⟨_, _⟩ := hp; omega)]

lemma Of.lt (h : frame.Of stream) (hp : frame.Covers p) : p < stream.length := by
  have hlen := h.length_le
  rw [length_drop] at hlen
  obtain ⟨_, _⟩ := hp
  omega

end CryptoFrame

namespace Reassembler

/-- What is marked received is the stream's, and `contiguousEnd` is the first byte missing. -/
structure Follows (stream : Bytes) (r : Reassembler) : Prop where
  lengths : r.buffer.length = r.received.length
  read : r.readOffset ≤ r.contiguousEnd
  bytes : ∀ p, r.received[p]? = some true → p < stream.length ∧ r.buffer[p]? = stream[p]?
  whole : ∀ p < r.contiguousEnd, r.received[p]? = some true
  missing : r.received[r.contiguousEnd]? ≠ some true

section Follows

variable {stream : Bytes} {r : Reassembler} {frame : CryptoFrame}

lemma follows_init (stream : Bytes) (maxBuffered : Nat) :
    Follows stream { maxBuffered := maxBuffered } where
  lengths := rfl
  read := Nat.le_refl 0
  bytes := by simp
  whole := by simp
  missing := by simp

lemma Follows.available_eq (h : r.Follows stream) :
    r.available = slice stream r.readOffset r.contiguousEnd := by
  unfold available
  refine ext_getElem? fun i => ?_
  rw [getElem?_slice, getElem?_slice]
  by_cases hi : r.readOffset + i < r.contiguousEnd
  · rw [if_pos hi, if_pos hi, (h.bytes _ (h.whole _ hi)).2]
  · rw [if_neg hi, if_neg hi]

lemma Follows.contiguous_le (h : r.Follows stream) : r.contiguousEnd ≤ stream.length := by
  by_contra hgt
  have := (h.bytes _ (h.whole (r.contiguousEnd - 1) (by omega))).1
  omega

/-- What was read and what can be read now are the front of the stream. -/
theorem Follows.read_append_available (h : r.Follows stream) :
    stream.take r.readOffset ++ r.available = stream.take r.contiguousEnd := by
  have htake : stream.take r.readOffset = (stream.take r.contiguousEnd).take r.readOffset := by
    rw [take_take, Nat.min_eq_left h.read]
  rw [h.available_eq, slice, htake, take_append_drop]

lemma Follows.conflicts_false (h : r.Follows stream) {data : Bytes} :
    ∀ {absolute : Nat}, data <+: stream.drop absolute → r.conflicts absolute data = false := by
  induction data with
  | nil => intros; rfl
  | cons byte rest ih =>
    intro absolute hprefix
    obtain ⟨tail, htail⟩ := hprefix
    have hbyte : stream[absolute]? = some byte := by
      rw [← Nat.add_zero absolute, ← getElem?_drop, ← htail]
      rfl
    have hrest : rest <+: stream.drop (absolute + 1) :=
      ⟨tail, by rw [← drop_drop, ← htail]; rfl⟩
    unfold conflicts
    split
    · rfl
    rw [if_neg, ih hrest]
    rintro ⟨hset, hne⟩
    have hrecv : r.received[absolute]? = some true := by
      cases hget : r.received[absolute]? <;> simp_all
    have hsame := (h.bytes _ hrecv).2
    exact hne (by rw [getD_eq_getElem?_getD, hsame, hbyte]; rfl)

/-- Where both arrays are of one length, every new cell is cleared. -/
theorem grownReceived_eq (h : r.buffer.length = r.received.length) (stop : Nat)
    (undefined : List Bool) :
    r.grownReceived stop undefined = resize r.received stop false := by
  unfold grownReceived
  split
  · rw [h, Nat.sub_self, takeD_zero, append_nil]
  · next hfits =>
      rw [resize, Nat.sub_eq_zero_of_le (by omega), replicate_zero, append_nil]

lemma received_store (h : r.buffer.length = r.received.length) (frame : CryptoFrame)
    (undefined : List Bool) (p : Nat) :
    (r.store frame.offset (frame.offset + frame.data.length) frame.data
        undefined).received[p]? = some true ↔ r.received[p]? = some true ∨ frame.Covers p := by
  show (overwrite _ _ _)[p]? = _ ↔ _
  rw [grownReceived_eq h, getElem?_overwrite (by simp)]
  unfold CryptoFrame.Covers
  by_cases hp : frame.offset ≤ p ∧ p < frame.offset + frame.data.length
  · rw [if_pos (by simpa using hp), getElem?_replicate, if_pos (by omega)]
    simp [hp]
  · simp [getElem?_resize_false, hp]

lemma Follows.store (h : r.Follows stream) (hof : frame.Of stream) (undefined : List Bool) :
    (r.store frame.offset (frame.offset + frame.data.length) frame.data
      undefined).Follows stream where
  lengths := by
    show (overwrite _ _ _).length = (overwrite _ _ _).length
    rw [grownReceived_eq h.lengths, length_overwrite (by simp), length_overwrite (by simp),
      length_resize, length_resize, h.lengths]
  read := Nat.le_add_right_of_le h.read
  bytes := by
    intro p hp
    have hbuffer : (r.store frame.offset (frame.offset + frame.data.length) frame.data
        undefined).buffer[p]? = if frame.Covers p then frame.data[p - frame.offset]?
          else (resize r.buffer (frame.offset + frame.data.length) 0)[p]? :=
      getElem?_overwrite (by simp) p
    rw [hbuffer]
    by_cases hcovers : frame.Covers p
    · rw [if_pos hcovers]
      exact ⟨hof.lt hcovers, hof.get hcovers⟩
    have hold := ((received_store h.lengths frame undefined p).mp hp).resolve_right hcovers
    have hlt := lt_of_getElem? hold
    rw [if_neg hcovers, getElem?_resize, if_pos (by rw [h.lengths]; exact hlt)]
    exact h.bytes p hold
  whole := by
    intro p hp
    by_cases hlt : p < r.contiguousEnd
    · exact (received_store h.lengths frame undefined p).mpr (.inl (h.whole p hlt))
    have hin := getElem?_of_lt_leadingTrue _ (p - r.contiguousEnd)
      (Nat.sub_lt_left_of_lt_add (not_lt.mp hlt) hp)
    rw [List.getElem?_drop, Nat.add_sub_cancel' (not_lt.mp hlt)] at hin
    exact hin
  missing := by
    have hout := getElem?_leadingTrue ((r.store frame.offset (frame.offset + frame.data.length)
      frame.data undefined).received.drop r.contiguousEnd)
    rw [List.getElem?_drop] at hout
    exact hout

/-- What an insertion of a frame of the stream does. -/
structure Inserted (stream : Bytes) (frame : CryptoFrame) (r r' : Reassembler) : Prop where
  follows : r'.Follows stream
  readOffset : r'.readOffset = r.readOffset
  maxBuffered : r'.maxBuffered = r.maxBuffered
  received : ∀ p, r'.received[p]? = some true ↔ r.received[p]? = some true ∨ frame.Covers p

lemma Follows.insert (h : r.Follows stream) (hof : frame.Of stream) (undefined : List Bool) :
    (∃ r', r.insert (.granted undefined) frame = (.ok (), r') ∧ Inserted stream frame r r') ∨
    (∃ e, r.insert (.granted undefined) frame = (.error e, r) ∧
      min r.maxBuffered maxU64 < frame.offset + frame.data.length) := by
  have hsame : (∀ p, frame.Covers p → r.received[p]? = some true) → Inserted stream frame r r :=
    fun hp => ⟨h, rfl, rfl, fun p => ⟨.inl, fun hor => hor.elim id (hp p)⟩⟩
  unfold Reassembler.insert checkedAdd
  by_cases hdata : frame.data.length = 0
  · rw [if_pos hdata]
    refine .inl ⟨r, rfl, hsame fun p hp => ?_⟩
    obtain ⟨_, _⟩ := hp
    omega
  rw [if_neg hdata]
  by_cases hrange : frame.offset + frame.data.length ≤ maxU64
  · rw [if_pos hrange]
    dsimp only
    by_cases hroom : r.maxBuffered < frame.offset + frame.data.length
    · simp [hroom]
    rw [if_neg hroom, h.conflicts_false hof, h.lengths, growThenStore_granted]
    split
    next hknown =>
      have hslice : slice r.buffer frame.offset (frame.offset + frame.data.length)
          = frame.data := by
        refine ext_getElem? fun i => ?_
        rw [getElem?_slice]
        by_cases hi : i < frame.data.length
        · have hcovers : frame.Covers (frame.offset + i) := ⟨by omega, by omega⟩
          have hget := hof.get hcovers
          rw [Nat.add_sub_cancel_left] at hget
          rw [if_pos hcovers.2, hget, (h.bytes _ (h.whole _ (by omega))).2]
        · rw [if_neg (by omega), getElem?_eq_none (not_lt.mp hi)]
      rw [if_neg (not_not.mpr hslice)]
      exact .inl ⟨r, rfl, hsame fun p hp => h.whole p (Nat.lt_of_lt_of_le hp.2 hknown.2)⟩
    next => exact .inl ⟨_, rfl, h.store hof undefined, rfl, rfl,
        received_store h.lengths frame undefined⟩
  · rw [if_neg hrange]
    exact .inr ⟨_, rfl, by omega⟩

end Follows

/-! ### Runs -/

/-- A call that inserts, if it does, a frame of the given ones, with memory for it. -/
def Op.From (frames : CryptoFrame → Prop) : Op → Prop
  | .insert growth frame => (∃ undefined, growth = .granted undefined) ∧ frames frame
  | _ => True

/-- The bytes a run has handed over. -/
def handed (h : List (Event Reassembler Op (Except (InsertError CryptoError) Bytes))) : Bytes :=
  h.flatMap fun e => e.output.toOption.getD []

/-- The frame is among those the run has inserted. -/
def HasInserted (h : List (Event Reassembler Op (Except (InsertError CryptoError) Bytes)))
    (frame : CryptoFrame) : Prop :=
  ∃ e ∈ h, ∃ growth, e.input = .insert growth frame ∧ e.output = .ok []

/-- How a history of calls and a state go together. -/
structure Tells (stream : Bytes) (maxBuffered : Nat)
    (h : List (Event Reassembler Op (Except (InsertError CryptoError) Bytes)))
    (r : Reassembler) : Prop where
  follows : r.Follows stream
  room : r.maxBuffered = maxBuffered
  delivered : handed h = stream.take r.readOffset
  inserted : ∀ frame, HasInserted h frame → ∀ p, frame.Covers p → r.received[p]? = some true
  fits : ∀ e ∈ h, ∀ growth frame, e.input = .insert growth frame →
    frame.offset + frame.data.length ≤ min maxBuffered maxU64 → e.output = .ok []

variable {stream : Bytes} {maxBuffered : Nat}
  {h : List (Event Reassembler Op (Except (InsertError CryptoError) Bytes))} {r : Reassembler}

lemma Tells.read (ht : Tells stream maxBuffered h r) {op : Op} {len : Nat}
    (hop : ∀ growth frame, op ≠ .insert growth frame)
    (hlen : len ≤ r.available.length) {output : Except (InsertError CryptoError) Bytes}
    (hout : output.toOption.getD [] = r.available.take len) :
    Tells stream maxBuffered (h ++ [⟨r, op, output, { r with readOffset := r.readOffset + len }⟩])
      { r with readOffset := r.readOffset + len } := by
  have hslice := ht.follows.available_eq
  have hle := ht.follows.contiguous_le
  rw [hslice, length_slice hle] at hlen
  refine ⟨{ ht.follows with read := by have := ht.follows.read; dsimp only; omega },
    ht.room, ?_, ?_, ?_⟩
  · unfold handed
    rw [flatMap_append, ← handed, ht.delivered]
    simp [hout, hslice, slice, take_add, drop_take, take_take, Nat.min_eq_left hlen]
  · rintro frame ⟨e, he, growth, hinput, hok⟩
    rcases mem_append.mp he with hold | hnew
    · exact ht.inserted frame ⟨e, hold, growth, hinput, hok⟩
    · cases mem_singleton.mp hnew
      exact absurd hinput (hop growth frame)
  intro e he growth frame hinput hfits
  rcases mem_append.mp he with hold | hnew
  · exact ht.fits e hold growth frame hinput hfits
  · cases mem_singleton.mp hnew
    exact absurd hinput (hop growth frame)

lemma Tells.insert (ht : Tells stream maxBuffered h r) {frame : CryptoFrame}
    (hof : frame.Of stream) (undefined : List Bool) :
    Tells stream maxBuffered (h ++ [event step r (.insert (.granted undefined) frame)])
      (step r (.insert (.granted undefined) frame)).2 := by
  have hmem : ∀ {e e' : Event Reassembler Op (Except (InsertError CryptoError) Bytes)},
      e ∈ h ++ [e'] → e ∈ h ∨ e = e' := by simp
  rcases ht.follows.insert hof undefined with ⟨r', hres, hins⟩ | ⟨e, hres, hover⟩
  · have hevent : event step r (.insert (.granted undefined) frame)
        = ⟨r, .insert (.granted undefined) frame, .ok [], r'⟩ := by
      simp [event, step, hres, Except.map]
    have hstate : (step r (.insert (.granted undefined) frame)).2 = r' := by simp [step, hres]
    rw [hevent, hstate]
    refine ⟨hins.follows, hins.maxBuffered.trans ht.room, ?_, ?_, ?_⟩
    · rw [hins.readOffset, ← ht.delivered]
      simp [handed, Except.toOption]
    · rintro f ⟨e, he, growth, hinput, hok⟩ p hp
      rcases hmem he with hold | rfl
      · exact (hins.received p).mpr (.inl (ht.inserted f ⟨e, hold, growth, hinput, hok⟩ p hp))
      · cases hinput
        exact (hins.received p).mpr (.inr hp)
    intro e he growth f hinput hfits
    rcases hmem he with hold | rfl
    · exact ht.fits e hold growth f hinput hfits
    · rfl
  have hevent : event step r (.insert (.granted undefined) frame)
      = ⟨r, .insert (.granted undefined) frame, .error e, r⟩ := by
    simp [event, step, hres, Except.map]
  have hstate : (step r (.insert (.granted undefined) frame)).2 = r := by simp [step, hres]
  rw [hevent, hstate]
  refine ⟨ht.follows, ht.room, ?_, ?_, ?_⟩
  · rw [← ht.delivered]
    simp [handed, Except.toOption]
  · rintro f ⟨e', he, growth, hinput, hok⟩
    rcases hmem he with hold | rfl
    · exact ht.inserted f ⟨e', hold, growth, hinput, hok⟩
    · cases hok
  intro e' he growth f hinput hfits
  rcases hmem he with hold | rfl
  · exact ht.fits e' hold growth f hinput hfits
  cases hinput
  rw [ht.room] at hover
  omega

lemma tells_run (ops : List Op) (hops : ∀ op ∈ ops, op.From (CryptoFrame.Of stream)) :
    Tells stream maxBuffered (trace step { maxBuffered := maxBuffered } ops)
      (exec step { maxBuffered := maxBuffered } ops) := by
  refine trace_induction step (fun _ op => op.From (CryptoFrame.Of stream))
    (Tells stream maxBuffered) ?_ ?_ ops (fun e he => hops _ (input_mem he))
  · exact ⟨follows_init stream maxBuffered, rfl, rfl, by simp [HasInserted], by simp⟩
  intro h r op ht hop
  cases op with
  | insert growth frame =>
    obtain ⟨⟨undefined, rfl⟩, hof⟩ := hop
    exact ht.insert hof undefined
  | consume len =>
    have hno : ∀ growth frame, Op.consume len ≠ .insert growth frame := nofun
    by_cases hzero : len = 0
    · have hread := @Tells.read _ _ _ _ ht _ 0 hno (Nat.zero_le _) (.ok []) rfl
      simpa [event, step, consume, hzero, Except.map, Except.mapError] using hread
    by_cases hlen : r.available.length < len
    · have hread := @Tells.read _ _ _ _ ht _ 0 hno (Nat.zero_le _)
        (.error (.invalid .nothingAvailable)) rfl
      simpa [event, step, consume, hzero, hlen, Except.map, Except.mapError] using hread
    have hread := @Tells.read _ _ _ _ ht _ len hno (not_lt.mp hlen)
      (.ok (r.available.take len)) rfl
    simpa [event, step, consume, hzero, hlen, Except.map, Except.mapError] using hread
  | readAllAvailable =>
    have hno : ∀ growth frame, Op.readAllAvailable ≠ .insert growth frame := nofun
    by_cases hlen : r.available.length = 0
    · have hread := @Tells.read _ _ _ _ ht _ 0 hno (Nat.zero_le _)
        (.error (.invalid .nothingAvailable)) rfl
      simpa [event, step, readAllAvailable, hlen, Except.mapError] using hread
    have hread := @Tells.read _ _ _ _ ht _ r.available.length hno le_rfl
      (.ok r.available) (by simp [Except.toOption])
    simpa [event, step, readAllAvailable, hlen, Except.mapError] using hread

end Reassembler

/-! ### Splitting -/

lemma cryptoFramesWireLenLoop_le {offset bytesLen max : Nat} (hmax : max ≠ 0) {fuel : Nat} :
    ∀ {written len n : Nat}, written < bytesLen → bytesLen - written ≤ fuel →
      cryptoFramesWireLenLoop offset bytesLen max fuel written len = .ok n →
      offset + bytesLen ≤ varintMax := by
  induction fuel with
  | zero => intros; omega
  | succ fuel ih =>
    intro written len n hlt hfuel h
    unfold cryptoFramesWireLenLoop checkedAdd at h
    rw [if_pos hlt] at h
    dsimp only at h
    split at h
    · cases h
    next frameOffset hoffset =>
      split at hoffset <;> cases hoffset
      split at h
      · cases h
      next frameEnd hend =>
        split at hend <;> cases hend
        split at h
        · cases h
        obtain ⟨len', -, h⟩ := bind_eq_ok h
        by_cases hmore : written + min max (bytesLen - written) < bytesLen
        · exact ih hmore (by omega) h
        · omega

lemma crypto_coded {offset : Nat} {data word : Bytes} (hend : offset + data.length ≤ varintMax)
    (h : writeDoubleVarintPayloadFrame .crypto offset data.length data = .ok word)
    (rest : Bytes) : parseFrameOwned (word ++ rest)
      = .ok { frame := .crypto offset data, consumed := word.length } := by
  obtain ⟨m, hm⟩ := Varint.length_of_le (show offset ≤ varintMax by omega)
  obtain ⟨n, hn⟩ := Varint.length_of_le (show data.length ≤ varintMax by omega)
  have hm8 := (Varint.length_ok hm).2
  have hn8 := (Varint.length_ok hn).2
  have hmax : varintMax + 17 ≤ maxU64 := by decide
  have hvalid : validateEndOffset offset data.length = .ok () := by
    simp [validateEndOffset, checkedAdd, show offset + data.length ≤ maxU64 by omega, hend]
  have hlen : (Frame.crypto offset data).wireLen = .ok (1 + m + n + data.length) := by
    simp [Frame.wireLen, hvalid, doubleVarintPayloadFrameWireLen, doubleVarintFrameWireLen, hm, hn,
      addWireLen, checkedAdd, bind, Except.bind, show 1 + m ≤ maxU64 by omega,
      show 1 + m + n ≤ maxU64 by omega, show 1 + m + n + data.length ≤ maxU64 by omega]
  obtain ⟨bytes, hbytes, hcount, hparse⟩ := (coded_crypto hlen).parse
  have hword : bytes = word := by
    simpa [Frame.writeAssumeCapacity, hvalid, h, bind, Except.bind] using hbytes.symm
  rw [← hword, hcount]
  exact hparse rest

/-- The frames of a stream from some offset on, all of them. -/
structure FramesFrom (stream : Bytes) (start : Nat) (wire : Bytes) (frames : List CryptoFrame) :
    Prop where
  parsed : ∀ packetType ≠ .zeroRtt,
    parsePacketFramesLoop packetType frames.length wire = .ok (frames.map CryptoFrame.toFrame)
  ofStream : ∀ frame ∈ frames, frame.Of stream
  cover : ∀ p, start ≤ p → p < stream.length → ∃ frame ∈ frames, frame.Covers p

lemma framesFrom_cons {stream word words : Bytes} {frames : List CryptoFrame}
    {frame : CryptoFrame} (hof : frame.Of stream)
    (hend : frame.offset + frame.data.length ≤ varintMax)
    (hword : writeDoubleVarintPayloadFrame .crypto frame.offset frame.data.length frame.data
      = .ok word)
    (hrest : FramesFrom stream (frame.offset + frame.data.length) words frames) :
    FramesFrom stream frame.offset (word ++ words) (frame :: frames) where
  parsed := by
    intro packetType htype
    have hparse := crypto_coded hend hword words
    obtain ⟨b, tail, hcons⟩ : ∃ b tail, word = b :: tail := by
      obtain ⟨_, -, h⟩ := bind_eq_ok hword
      obtain ⟨_, -, h⟩ := bind_eq_ok h
      cases h
      exact ⟨_, _, rfl⟩
    have hallowed : validateFrameForPacketType (.crypto frame.offset frame.data) packetType
        = .ok () := by
      cases packetType <;> first | rfl | exact absurd rfl htype
    subst hcons
    rw [cons_append] at hparse ⊢
    rw [length_cons, parsePacketFramesLoop, hparse]
    show (validateFrameForPacketType _ packetType >>= fun _ => _) = _
    rw [hallowed]
    show (parsePacketFramesLoop packetType frames.length
      ((b :: tail ++ words).drop (b :: tail).length) >>= fun _ => _) = _
    rw [drop_left, hrest.parsed packetType htype]
    rfl
  ofStream := by
    intro f hf
    rcases mem_cons.mp hf with rfl | hf
    · exact hof
    · exact hrest.ofStream f hf
  cover := by
    intro p hp hlt
    by_cases hin : p < frame.offset + frame.data.length
    · exact ⟨frame, mem_cons_self, hp, hin⟩
    · obtain ⟨f, hf, hcovers⟩ := hrest.cover p (not_lt.mp hin) hlt
      exact ⟨f, mem_cons_of_mem _ hf, hcovers⟩

lemma writeChunks_frames {stream : Bytes} {offset max : Nat} (hmax : max ≠ 0) {fuel : Nat} :
    ∀ {written : Nat} {rest wire : Bytes}, rest.length ≤ fuel →
      rest = stream.drop (offset + written) →
      (rest.length ≠ 0 → offset + written + rest.length ≤ varintMax) →
      writeChunks offset max fuel written rest = .ok wire →
      ∃ frames, FramesFrom stream (offset + written) wire frames := by
  induction fuel with
  | zero =>
    intro written rest wire hfuel hrest _ h
    cases h
    rw [hrest, length_drop] at hfuel
    exact ⟨[], fun _ _ => rfl, by simp, fun p hp hlt => by omega⟩
  | succ fuel ih =>
    intro written rest wire hfuel hrest hend h
    have hlen : rest.length = stream.length - (offset + written) := by rw [hrest, length_drop]
    unfold writeChunks checkedAdd at h
    split at h
    · cases h
      exact ⟨[], fun _ _ => rfl, by simp, fun p hp hlt => by omega⟩
    next hne =>
      have hend := hend hne
      have hchunk : (rest.take max).length = min max rest.length := length_take
      have hbound : varintMax ≤ maxU64 := by decide
      rw [if_pos (by omega)] at h
      obtain ⟨word, hword, h⟩ := bind_eq_ok h
      obtain ⟨words, hwords, h⟩ := bind_eq_ok h
      cases h
      have hword : writeDoubleVarintPayloadFrame .crypto (offset + written)
          (rest.take max).length (rest.take max) = .ok word := by
        revert hword
        cases writeDoubleVarintPayloadFrame .crypto (offset + written) (rest.take max).length
          (rest.take max) <;> simp [Except.mapError]
      have hnext : rest.drop max
          = stream.drop (offset + (written + (rest.take max).length)) := by
        rw [← Nat.add_assoc, ← drop_drop, ← hrest]
        simp
      obtain ⟨frames, hframes⟩ := ih (by rw [length_drop]; omega) hnext
        (by rw [length_drop]; omega) hwords
      refine ⟨_, @framesFrom_cons _ _ _ frames ⟨offset + written, rest.take max⟩ ?_ ?_ hword ?_⟩
      · show rest.take max <+: stream.drop (offset + written)
        rw [← hrest]
        exact take_prefix max rest
      · show offset + written + (rest.take max).length ≤ varintMax
        omega
      show FramesFrom stream (offset + written + (rest.take max).length) words frames
      rw [Nat.add_assoc]
      exact hframes

lemma writeCryptoFrames_frames {prior bytes wire : Bytes} {max : Nat}
    (h : writeCryptoFrames prior.length bytes max = .ok wire) :
    ∃ frames, FramesFrom (prior ++ bytes) prior.length wire frames := by
  unfold writeCryptoFrames at h
  split at h
  next hnil =>
    cases h
    exact ⟨[], fun _ _ => rfl, by simp, fun p hp hlt => by rw [length_append] at hlt; omega⟩
  next hne =>
    split at h
    · cases h
    next hmax =>
      obtain ⟨n, hlen, h⟩ := bind_eq_ok h
      unfold cryptoFramesWireLen at hlen
      rw [if_neg hmax] at hlen
      have hend := cryptoFramesWireLenLoop_le hmax (Nat.pos_of_ne_zero hne) le_rfl hlen
      exact writeChunks_frames hmax le_rfl (by simp) (fun _ => hend) h

/-- **Written CRYPTO frames parse back; inserted in any order, any number of times, together with
frames of the bytes before them and with reads in between, only a front part of the stream is ever
handed over, and all of it once everything is inserted.** -/
theorem crypto_frames_round_trip {prior bytes wire : Bytes} {maxFrameDataLen : Nat}
    (h : writeCryptoFrames prior.length bytes maxFrameDataLen = .ok wire) :
    ∃ frames : List CryptoFrame,
      (∀ packetType ≠ .zeroRtt, parsePacketFramesLoop packetType frames.length wire
        = .ok (frames.map CryptoFrame.toFrame)) ∧
      ∀ (maxBuffered : Nat) (ops : List Reassembler.Op),
        (∀ op ∈ ops, op.From fun frame => frame ∈ frames ∨ frame.Of prior) →
        let run := trace Reassembler.step { maxBuffered := maxBuffered } ops
        let r := exec Reassembler.step { maxBuffered := maxBuffered } ops
        handed run ++ r.available <+: prior ++ bytes ∧
        (∀ e ∈ run, ∀ growth frame, e.input = .insert growth frame →
          frame.offset + frame.data.length ≤ min maxBuffered maxU64 → e.output = .ok []) ∧
        ((∀ frame ∈ frames, Reassembler.HasInserted run frame) →
          (∀ p < prior.length, ∃ frame, Reassembler.HasInserted run frame ∧ frame.Covers p) →
          handed run ++ r.available = prior ++ bytes) := by
  obtain ⟨frames, hframes⟩ := writeCryptoFrames_frames h
  refine ⟨frames, hframes.parsed, fun maxBuffered ops hops => ?_⟩
  have htells := @Reassembler.tells_run (prior ++ bytes) maxBuffered ops (fun op hop => by
    have hfrom := hops op hop
    cases op with
    | insert growth frame =>
      refine ⟨hfrom.1, hfrom.2.elim (hframes.ofStream frame) fun hprior => hprior.trans ?_⟩
      simp [drop_append]
    | consume len => trivial
    | readAllAvailable => trivial)
  have hfront := htells.follows.read_append_available
  dsimp only
  rw [htells.delivered, hfront]
  refine ⟨List.take_prefix _ _, htells.fits, fun hall hprior => ?_⟩
  apply take_of_length_le
  by_contra hlt
  refine htells.follows.missing ?_
  generalize (exec Reassembler.step { maxBuffered := maxBuffered } ops).contiguousEnd = p at hlt
  by_cases hp : p < prior.length
  · obtain ⟨frame, hins, hcovers⟩ := hprior p hp
    exact htells.inserted frame hins p hcovers
  · obtain ⟨frame, hmem, hcovers⟩ := hframes.cover p (by omega) (by omega)
    exact htells.inserted frame (hall frame hmem) p hcovers

/-- Three bytes behind two others, in frames of at most two bytes. -/
theorem crypto_frames_round_trip_three :
    ∃ frames : List CryptoFrame,
      (∀ packetType ≠ .zeroRtt,
        parsePacketFramesLoop packetType frames.length [6, 2, 2, 1, 2, 6, 4, 1, 3]
          = .ok (frames.map CryptoFrame.toFrame)) ∧
      ∀ (maxBuffered : Nat) (ops : List Reassembler.Op),
        (∀ op ∈ ops, op.From fun frame => frame ∈ frames ∨ frame.Of [8, 9]) →
        let run := trace Reassembler.step { maxBuffered := maxBuffered } ops
        let r := exec Reassembler.step { maxBuffered := maxBuffered } ops
        handed run ++ r.available <+: [8, 9] ++ [1, 2, 3] ∧
        (∀ e ∈ run, ∀ growth frame, e.input = .insert growth frame →
          frame.offset + frame.data.length ≤ min maxBuffered maxU64 → e.output = .ok []) ∧
        ((∀ frame ∈ frames, Reassembler.HasInserted run frame) →
          (∀ p < 2, ∃ frame, Reassembler.HasInserted run frame ∧ frame.Covers p) →
          handed run ++ r.available = [8, 9] ++ [1, 2, 3]) :=
  @crypto_frames_round_trip [8, 9] [1, 2, 3] _ 2 (by decide)

end Netz.Quic
