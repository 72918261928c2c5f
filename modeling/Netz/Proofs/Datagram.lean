/-
The largest DATAGRAM payload, and the queue of received ones.

The search for the largest payload looks for a width that fits itself: a payload of `frameSize`
less the type and a length of that width, whose own length has it.  Where two widths lead to each
other there is none, and the search goes on for ever (`loop_alternates`).

The queue is an array that grows up to its capacity and is used as a ring from then on.  `Holds`
says which slots are in use; from it every call is one of a bounded list that drops its oldest
element (`Fifo`).
-/
import Netz.Lib.Machine
import Netz.Lib.Ring
import Netz.Proofs.FrameFields
import Netz.Quic.Datagram

namespace Netz.Quic

open Lib List

/-! ### The largest payload -/

/-- A payload fits: its length-prefixed frame is at most `frameSize` bytes. -/
def Fits (frameSize payload : Nat) : Prop :=
  ∃ size, datagramFrameWireSize payload true = some size ∧ size ≤ frameSize

/-- The largest payload that fits, or none. -/
def IsLargestPayload (frameSize : Nat) : Option Nat → Prop
  | none => ∀ payload, ¬Fits frameSize payload
  | some largest => Fits frameSize largest ∧ ∀ payload, Fits frameSize payload → payload ≤ largest

/-- The search ends, and with the right answer. -/
def FindsLargestPayload (frameSize : Nat) : Prop :=
  ∃ rounds answer, maxDatagramPayloadForFrameSize rounds frameSize = some answer ∧
    IsLargestPayload frameSize answer

/-- The frame sizes for which the search ends with the right answer. -/
structure Searchable (frameSize : Nat) : Prop where
  /-- An empty payload would fit. -/
  notTwo : frameSize ≠ 2
  /-- One and two bytes of length lead to each other, and so on. -/
  notOneTwo : frameSize ≠ 66
  notTwoFour : ¬(16387 ≤ frameSize ∧ frameSize ≤ 16388)
  notFourEight : ¬(2 ^ 30 + 5 ≤ frameSize ∧ frameSize ≤ 2 ^ 30 + 8)
  /-- Beyond, the first candidate has no length at all. -/
  measurable : frameSize ≤ 2 ^ 62 + 1

lemma length_datagramLen : Varint.length FrameType.datagramLen.toInt = .ok 1 := rfl

/-- Which width a value has. -/
theorem width_iff {value width : Nat} :
    Varint.length value = .ok width ↔
      (width = 1 ∧ value ≤ 63) ∨ (width = 2 ∧ 63 < value ∧ value ≤ 16383) ∨
        (width = 4 ∧ 16383 < value ∧ value ≤ 1073741823) ∨
        (width = 8 ∧ 1073741823 < value ∧ value ≤ varintMax) := by
  unfold Varint.length
  by_cases hone : value ≤ 63
  · rw [if_pos hone, Except.ok.injEq]
    omega
  rw [if_neg hone]
  by_cases htwo : value ≤ 16383
  · rw [if_pos htwo, Except.ok.injEq]
    omega
  rw [if_neg htwo]
  by_cases hfour : value ≤ 1073741823
  · rw [if_pos hfour, Except.ok.injEq]
    omega
  rw [if_neg hfour]
  by_cases height : value ≤ varintMax
  · rw [if_pos height, Except.ok.injEq]
    omega
  rw [if_neg height]
  simp only [reduceCtorEq, false_iff]
  omega

variable {payload lenLen frameSize next : Nat}

lemma wireSize_eq (h : Varint.length payload = .ok lenLen) :
    datagramFrameWireSize payload true = some (1 + payload + lenLen) := by
  have hlen := (width_iff).mp h
  have hmax : varintMax = 2 ^ 62 - 1 := rfl
  have hu64 : maxU64 = 2 ^ 64 - 1 := rfl
  have hfirst : checkedAdd 1 payload = some (1 + payload) := by
    unfold checkedAdd
    rw [if_pos (by omega)]
  have hsecond : checkedAdd (1 + payload) lenLen = some (1 + payload + lenLen) := by
    unfold checkedAdd
    rw [if_pos (by omega)]
  simp only [datagramFrameWireSize, if_true, length_datagramLen, hfirst, h, hsecond]

lemma fits_iff :
    Fits frameSize payload ↔
      ∃ lenLen, Varint.length payload = .ok lenLen ∧ 1 + payload + lenLen ≤ frameSize := by
  constructor
  · rintro ⟨size, hsize, hle⟩
    cases hlen : Varint.length payload with
    | ok lenLen =>
      rw [wireSize_eq hlen, Option.some.injEq] at hsize
      exact ⟨lenLen, rfl, by omega⟩
    | error e =>
      cases hadd : checkedAdd 1 payload with
      | none => simp [datagramFrameWireSize, length_datagramLen, hadd] at hsize
      | some total => simp [datagramFrameWireSize, length_datagramLen, hadd, hlen] at hsize
  · rintro ⟨lenLen, hlen, hle⟩
    exact ⟨_, wireSize_eq hlen, hle⟩

lemma length_mono {a b m n : Nat} (hab : a ≤ b) (ha : Varint.length a = .ok m)
    (hb : Varint.length b = .ok n) : m ≤ n := by
  have hm := (width_iff).mp ha
  have hn := (width_iff).mp hb
  omega

/-- **A width that fits itself is the answer.** -/
theorem largest_of_fixed (hlarge : 1 + lenLen < frameSize)
    (h : Varint.length (frameSize - 1 - lenLen) = .ok lenLen) :
    IsLargestPayload frameSize (some (frameSize - 1 - lenLen)) := by
  refine ⟨(fits_iff).mpr ⟨lenLen, h, by omega⟩, ?_⟩
  intro payload hfits
  obtain ⟨width, hwidth, hle⟩ := (fits_iff).mp hfits
  by_contra hlt
  have hmono := length_mono (by omega) h hwidth
  omega

lemma loop_round (rounds : Nat) (hlarge : 1 + lenLen < frameSize)
    (h : Varint.length (frameSize - 1 - lenLen) = .ok next) :
    maxDatagramPayloadLoop frameSize 1 (rounds + 1) lenLen =
      if next = lenLen then some (some (frameSize - 1 - lenLen))
      else maxDatagramPayloadLoop frameSize 1 rounds next := by
  conv_lhs => unfold maxDatagramPayloadLoop
  rw [if_neg (by omega), h]

/-- **Two widths that lead to each other keep the search going.** -/
theorem loop_alternates {a b : Nat} (hab : a ≠ b) (ha : 1 + a < frameSize) (hb : 1 + b < frameSize)
    (hfirst : Varint.length (frameSize - 1 - a) = .ok b)
    (hsecond : Varint.length (frameSize - 1 - b) = .ok a) (rounds : Nat) :
    maxDatagramPayloadLoop frameSize 1 rounds a = none ∧
      maxDatagramPayloadLoop frameSize 1 rounds b = none := by
  induction rounds with
  | zero => exact ⟨rfl, rfl⟩
  | succ rounds ih =>
    rw [loop_round rounds ha hfirst, if_neg (Ne.symm hab), loop_round rounds hb hsecond, if_neg hab]
    exact ⟨ih.2, ih.1⟩

lemma loop_fixed (rounds : Nat) (hlarge : 1 + lenLen < frameSize)
    (h : Varint.length (frameSize - 1 - lenLen) = .ok lenLen) :
    maxDatagramPayloadLoop frameSize 1 (rounds + 1) lenLen =
      some (some (frameSize - 1 - lenLen)) := by
  rw [loop_round rounds hlarge h, if_pos rfl]

lemma loop_moves (rounds : Nat) (hlarge : 1 + lenLen < frameSize)
    (h : Varint.length (frameSize - 1 - lenLen) = .ok next) (hne : next ≠ lenLen) :
    maxDatagramPayloadLoop frameSize 1 (rounds + 1) lenLen =
      maxDatagramPayloadLoop frameSize 1 rounds next := by
  rw [loop_round rounds hlarge h, if_neg hne]

lemma search_eq (rounds : Nat) (h : 1 < frameSize) :
    maxDatagramPayloadForFrameSize rounds frameSize =
      maxDatagramPayloadLoop frameSize 1 rounds 1 := by
  unfold maxDatagramPayloadForFrameSize
  rw [length_datagramLen]
  dsimp only
  rw [if_neg (by omega)]

lemma finds_of_searchable (h : Searchable frameSize) : FindsLargestPayload frameSize := by
  obtain ⟨hnotTwo, hnotOneTwo, hnotTwoFour, hnotFourEight, hmeasurable⟩ := h
  have hmax : varintMax = 2 ^ 62 - 1 := rfl
  by_cases hnone : frameSize ≤ 1
  · refine ⟨0, none, ?_, ?_⟩
    · simp [length_datagramLen, hnone, maxDatagramPayloadForFrameSize]
    intro payload hfits
    obtain ⟨lenLen, hlen, hle⟩ := (fits_iff).mp hfits
    have hwidth := (width_iff).mp hlen
    omega
  -- The width that fits itself, and the way to it.
  have found : ∀ {lenLen : Nat} (rounds : Nat), 1 + lenLen < frameSize →
      Varint.length (frameSize - 1 - lenLen) = .ok lenLen →
      maxDatagramPayloadLoop frameSize 1 rounds 1 =
        some (some (frameSize - 1 - lenLen)) → FindsLargestPayload frameSize := by
    intro lenLen rounds hlarge hfixed hloop
    exact ⟨rounds, _, (search_eq rounds (by omega)).trans hloop, largest_of_fixed hlarge hfixed⟩
  by_cases hone : frameSize ≤ 65
  · have hfixed : Varint.length (frameSize - 1 - 1) = .ok 1 := (width_iff).mpr (by omega)
    exact found 1 (by omega) hfixed (loop_fixed 0 (by omega) hfixed)
  by_cases htwo : frameSize ≤ 16386
  · have hfixed : Varint.length (frameSize - 1 - 2) = .ok 2 := (width_iff).mpr (by omega)
    by_cases hstep : frameSize ≤ 16385
    · have hfirst : Varint.length (frameSize - 1 - 1) = .ok 2 := (width_iff).mpr (by omega)
      refine found 2 (by omega) hfixed ?_
      rw [loop_moves 1 (by omega) hfirst (by omega), loop_fixed 0 (by omega) hfixed]
    have hfirst : Varint.length (frameSize - 1 - 1) = .ok 4 := (width_iff).mpr (by omega)
    have hback : Varint.length (frameSize - 1 - 4) = .ok 2 := (width_iff).mpr (by omega)
    refine found 3 (by omega) hfixed ?_
    rw [loop_moves 2 (by omega) hfirst (by omega), loop_moves 1 (by omega) hback (by omega),
      loop_fixed 0 (by omega) hfixed]
  by_cases hfour : frameSize ≤ 2 ^ 30 + 4
  · have hfixed : Varint.length (frameSize - 1 - 4) = .ok 4 := (width_iff).mpr (by omega)
    by_cases hstep : frameSize ≤ 2 ^ 30 + 1
    · have hfirst : Varint.length (frameSize - 1 - 1) = .ok 4 := (width_iff).mpr (by omega)
      refine found 2 (by omega) hfixed ?_
      rw [loop_moves 1 (by omega) hfirst (by omega), loop_fixed 0 (by omega) hfixed]
    have hfirst : Varint.length (frameSize - 1 - 1) = .ok 8 := (width_iff).mpr (by omega)
    have hback : Varint.length (frameSize - 1 - 8) = .ok 4 := (width_iff).mpr (by omega)
    refine found 3 (by omega) hfixed ?_
    rw [loop_moves 2 (by omega) hfirst (by omega), loop_moves 1 (by omega) hback (by omega),
      loop_fixed 0 (by omega) hfixed]
  have hfixed : Varint.length (frameSize - 1 - 8) = .ok 8 := (width_iff).mpr (by omega)
  have hfirst : Varint.length (frameSize - 1 - 1) = .ok 8 := (width_iff).mpr (by omega)
  refine found 2 (by omega) hfixed ?_
  rw [loop_moves 1 (by omega) hfirst (by omega), loop_fixed 0 (by omega) hfixed]

lemma not_finds_of_alternating {frameSize first a b : Nat} (hlarge : 9 < frameSize)
    (hfirst : Varint.length (frameSize - 1 - 1) = .ok first) (hmoves : first ≠ 1)
    (hab : a ≠ b) (ha : Varint.length (frameSize - 1 - a) = .ok b)
    (hb : Varint.length (frameSize - 1 - b) = .ok a) (hreached : first = a ∨ first = b) :
    ¬FindsLargestPayload frameSize := by
  rintro ⟨rounds, answer, hans, -⟩
  rw [search_eq rounds (by omega)] at hans
  have hwidthA := (width_iff).mp hb
  have hwidthB := (width_iff).mp ha
  cases rounds with
  | zero => exact absurd hans (by simp [maxDatagramPayloadLoop])
  | succ rounds =>
    obtain ⟨hloopA, hloopB⟩ := loop_alternates hab (by omega) (by omega) ha hb rounds
    rw [loop_moves rounds (by omega) hfirst hmoves] at hans
    rcases hreached with rfl | rfl
    · simp [hloopA] at hans
    · simp [hloopB] at hans

lemma not_finds_of_fits (hfits : Fits frameSize payload)
    (h : ∀ rounds answer, maxDatagramPayloadForFrameSize rounds frameSize = some answer →
      answer = none) : ¬FindsLargestPayload frameSize := by
  rintro ⟨rounds, answer, hans, hmax⟩
  rw [h rounds answer hans] at hmax
  exact hmax payload hfits

lemma searchable_of_finds (h : FindsLargestPayload frameSize) : Searchable frameSize := by
  have hmax : varintMax = 2 ^ 62 - 1 := rfl
  refine ⟨?_, ?_, ?_, ?_, ?_⟩
  · rintro rfl
    have hfits : Fits 2 0 := (fits_iff).mpr ⟨1, rfl, Nat.le_refl 2⟩
    refine not_finds_of_fits hfits ?_ h
    intro rounds answer hans
    rw [search_eq rounds (by omega)] at hans
    cases rounds with
    | zero => exact absurd hans (by simp [maxDatagramPayloadLoop])
    | succ rounds =>
      unfold maxDatagramPayloadLoop at hans
      rw [if_pos (by omega), Option.some.injEq] at hans
      exact hans.symm
  · rintro rfl
    exact @not_finds_of_alternating 66 2 2 1 (by omega) rfl (by omega)
      (by omega) rfl rfl (.inl rfl) h
  · intro hrange
    exact @not_finds_of_alternating frameSize 4 4 2 (by omega)
      ((width_iff).mpr (by omega)) (by omega) (by omega) ((width_iff).mpr (by omega))
      ((width_iff).mpr (by omega)) (.inl rfl) h
  · intro hrange
    exact @not_finds_of_alternating frameSize 8 8 4 (by omega)
      ((width_iff).mpr (by omega)) (by omega) (by omega) ((width_iff).mpr (by omega))
      ((width_iff).mpr (by omega)) (.inl rfl) h
  by_contra hlarge
  have hfits : Fits frameSize 0 := (fits_iff).mpr ⟨1, rfl, by omega⟩
  refine not_finds_of_fits hfits ?_ h
  intro rounds answer hans
  rw [search_eq rounds (by omega)] at hans
  cases rounds with
  | zero => exact absurd hans (by simp [maxDatagramPayloadLoop])
  | succ rounds =>
    have hnone : Varint.length (frameSize - 1 - 1) = .error .varIntTooLarge := by
      unfold Varint.length
      rw [if_neg (by omega), if_neg (by omega), if_neg (by omega), if_neg (by omega)]
    unfold maxDatagramPayloadLoop at hans
    rw [if_neg (by omega), hnone, Option.some.injEq] at hans
    exact hans.symm

/--
**Which frame sizes are searched rightly.**  The search for the largest payload ends with it, or
with none where none fits, exactly for the sizes of `Searchable`.
-/
theorem finds_largest_payload_iff (frameSize : Nat) :
    FindsLargestPayload frameSize ↔ Searchable frameSize :=
  ⟨searchable_of_finds, finds_of_searchable⟩

/-- With 66 bytes the widths 1 and 2 lead to each other. -/
theorem finds_largest_payload_never_ends : ¬∀ frameSize, FindsLargestPayload frameSize :=
  fun h => @not_finds_of_alternating 66 2 2 1 (by omega) rfl (by omega) (by omega) rfl rfl
    (.inl rfl) (h 66)

/-! ### The receive queue -/

namespace DatagramRecvQueue

variable {α : Type}

/-- A bounded queue that drops its oldest element where it is full. -/
def fifo (capacity : Nat) (items : List α) : Call α → Except Failure (Option α) × List α
  | .push _ payload =>
    if items.length < capacity then (.ok none, items ++ [payload])
    else (.ok items.head?, items.tail ++ [payload])
  | .pop => (.ok items.head?, items.tail)

lemma fifo_push_free {capacity : Nat} {items : List α} (h : items.length < capacity)
    (allocates : Bool) (payload : α) :
    fifo capacity items (.push allocates payload) = (.ok none, items ++ [payload]) := if_pos h

lemma fifo_push_full {capacity : Nat} {items : List α} (h : ¬items.length < capacity)
    (allocates : Bool) (payload : α) :
    fifo capacity items (.push allocates payload) = (.ok items.head?, items.tail ++ [payload]) :=
  if_neg h

/-- The queue holds these elements: from the head on, its cells are theirs, and then empty. -/
structure Holds (capacity : Nat) (q : DatagramRecvQueue α) (items : List α) : Prop where
  len : q.len = items.length
  bounded : items.length ≤ capacity
  grown : q.slots.length ≤ capacity
  room : items.length ≤ q.slots.length
  head : q.head ≤ q.slots.length - 1
  cells : ∀ offset, offset < q.slots.length →
    q.slots[(q.head + offset) % q.slots.length]? = some items[offset]?
  /-- The array is used as a ring only when it has its full size. -/
  straight : q.slots.length < capacity → q.head + items.length ≤ q.slots.length

lemma holds_empty (capacity : Nat) : Holds capacity ({} : DatagramRecvQueue α) [] :=
  ⟨rfl, Nat.zero_le _, Nat.zero_le _, le_rfl, le_rfl,
    fun offset h => absurd h (Nat.not_lt_zero offset), fun _ => le_rfl⟩

lemma getElem?_set_wrapped {β : Type} {slots : List β} {head i j : Nat} {value : β}
    (hhead : head < slots.length) (hi : i < slots.length) (hj : j < slots.length) :
    (slots.set ((head + j) % slots.length) value)[(head + i) % slots.length]? =
      if i = j then some value else slots[(head + i) % slots.length]? := by
  have hlt : (head + j) % slots.length < slots.length := Nat.mod_lt _ (by omega)
  rw [getElem?_set]
  by_cases hij : i = j
  · rw [hij, if_pos rfl, if_pos hlt, if_pos rfl]
  rw [if_neg hij]
  rcases Nat.lt_or_gt_of_ne hij with h | h
  · rw [if_neg (Ne.symm (wrapped_ne hhead h hj))]
  · rw [if_neg (wrapped_ne hhead h hi)]

lemma exists_offset {head size index : Nat} (hhead : head < size) (hidx : index < size) :
    ∃ offset, offset < size ∧ (head + offset) % size = index := by
  by_cases h : head ≤ index
  · refine ⟨index - head, by omega, ?_⟩
    rw [Nat.mod_eq_of_lt (by omega)]
    omega
  refine ⟨index + size - head, by omega, ?_⟩
  have hsum : head + (index + size - head) = index + size := by omega
  rw [hsum, Nat.add_mod_right, Nat.mod_eq_of_lt hidx]

variable {capacity : Nat} {q : DatagramRecvQueue α} {items : List α}

lemma Holds.contents (h : Holds capacity q items) : q.contents = items := by
  have hcells : ∀ offset ∈ range q.len,
      (q.slots[(q.head + offset) % q.slots.length]?).join = items[offset]? := by
    intro offset hoffset
    have hlt := mem_range.mp hoffset
    rw [h.len] at hlt
    rw [h.cells offset (hlt.trans_le h.room)]
    rfl
  unfold DatagramRecvQueue.contents
  rw [filterMap_congr hcells, h.len]
  exact filterMap_getElem?_range items

lemma Holds.front (h : Holds capacity q items) {first : α} {rest : List α}
    (hitems : items = first :: rest) : q.slots[q.head]? = some (some first) := by
  have hroom := h.room
  have hhead := h.head
  rw [hitems, length_cons] at hroom
  have hcell := h.cells 0 (by omega)
  rw [Nat.mod_eq_of_lt (by omega), hitems] at hcell
  exact hcell

/-- The cells behind the head's, which becomes the last one. -/
theorem Holds.turned (h : Holds capacity q items) {first : α} {rest : List α}
    (hitems : items = first :: rest) (value : Option α) {offset : Nat}
    (hoffset : offset < q.slots.length) :
    (q.slots.set q.head value)[((q.head + 1) % q.slots.length + offset) % q.slots.length]? =
      if offset + 1 = q.slots.length then some value else some rest[offset]? := by
  have hhead := h.head
  have hturn : ((q.head + 1) % q.slots.length + offset) % q.slots.length =
      (q.head + (offset + 1)) % q.slots.length := by
    rw [Nat.mod_add_mod]
    congr 1
    omega
  rw [hturn]
  by_cases hlast : offset + 1 = q.slots.length
  · have hwrap : (q.head + q.slots.length) % q.slots.length = q.head := by
      rw [Nat.add_mod_right, Nat.mod_eq_of_lt (by omega)]
    rw [if_pos hlast, hlast, hwrap, getElem?_set_self (by omega)]
  have hset := @getElem?_set_wrapped _ q.slots q.head (offset + 1) 0 value (by omega) (by omega)
    (by omega)
  rw [Nat.add_zero, Nat.mod_eq_of_lt (by omega : q.head < q.slots.length)] at hset
  rw [if_neg hlast, hset, h.cells (offset + 1) (by omega), hitems]
  rfl

/-! ### Calls -/

lemma pop_holds (h : Holds capacity q items) :
    ∃ q', q.pop = (.ok items.head?, q') ∧ Holds capacity q' items.tail := by
  have hlen := h.len
  have hhead := h.head
  have hroom := h.room
  have hbnd := h.bounded
  unfold pop
  cases hitems : items with
  | nil =>
    rw [hitems] at h hlen
    rw [length_nil] at hlen
    rw [if_pos hlen]
    exact ⟨q, rfl, h⟩
  | cons first rest =>
    rw [hitems, length_cons] at hlen hroom hbnd
    rw [if_neg (by omega), h.front hitems]
    refine ⟨_, rfl, ?_⟩
    have hstraight := h.straight
    rw [hitems, length_cons] at hstraight
    by_cases hlast : q.len - 1 = 0
    · -- An emptied queue starts over at the first slot.
      have hrest : rest = [] := length_eq_zero_iff.mp (by omega)
      rw [if_pos hlast, hrest]
      refine ⟨hlast, Nat.zero_le _, ?_, Nat.zero_le _, Nat.zero_le _, ?_, ?_⟩
      · show (q.slots.set q.head none).length ≤ capacity
        rw [length_set]
        exact h.grown
      · intro index hidx
        rw [length_set] at hidx
        rw [length_set, Nat.zero_add, Nat.mod_eq_of_lt hidx]
        obtain ⟨offset, hoffset, hplace⟩ := exists_offset (by omega : q.head < q.slots.length) hidx
        rw [← hplace, getElem?_set]
        by_cases hself : q.head = (q.head + offset) % q.slots.length
        · rw [if_pos hself, if_pos (by omega)]
          rfl
        rw [if_neg hself, h.cells offset hoffset, hitems, hrest]
        have hpos : offset ≠ 0 := by
          rintro rfl
          rw [Nat.mod_eq_of_lt (by omega)] at hself
          exact hself rfl
        obtain ⟨n, rfl⟩ := Nat.exists_eq_succ_of_ne_zero hpos
        rfl
      · simp
    rw [if_neg hlast]
    refine ⟨?_, by simp only [tail_cons]; omega, ?_, ?_, ?_, ?_, ?_⟩
    · show q.len - 1 = rest.length
      omega
    · show (q.slots.set q.head none).length ≤ capacity
      rw [length_set]
      exact h.grown
    · show rest.length ≤ (q.slots.set q.head none).length
      rw [length_set]
      omega
    · show (q.head + 1) % q.slots.length ≤ (q.slots.set q.head none).length - 1
      have hmod : (q.head + 1) % q.slots.length < q.slots.length := Nat.mod_lt _ (by omega)
      rw [length_set]
      omega
    · intro offset hoffset
      rw [length_set] at hoffset
      show (q.slots.set q.head none)[((q.head + 1) % q.slots.length + offset) %
        (q.slots.set q.head none).length]? = some rest[offset]?
      rw [length_set, h.turned hitems none hoffset]
      by_cases hend : offset + 1 = q.slots.length
      · rw [if_pos hend, getElem?_eq_none (by omega)]
      · rw [if_neg hend]
    intro hsmall
    rw [length_set] at hsmall
    show (q.head + 1) % q.slots.length + rest.length ≤ (q.slots.set q.head none).length
    rw [length_set, Nat.mod_eq_of_lt (by omega)]
    omega

lemma push_full (h : Holds capacity q items) (hcap : capacity ≠ 0)
    (hfull : items.length = capacity) (allocates : Bool) (payload : α) :
    ∃ q', q.pushDroppingOldest allocates payload capacity = (.ok items.head?, q') ∧
      Holds capacity q' (items.tail ++ [payload]) := by
  have hlen := h.len
  have hgrown := h.grown
  have hroom := h.room
  cases hitems : items with
  | nil =>
    rw [hitems] at hfull
    exact absurd hfull.symm hcap
  | cons first rest =>
    unfold pushDroppingOldest
    rw [if_neg (by omega), if_neg (by omega), h.front hitems]
    rw [hitems, length_cons] at hfull hroom
    refine ⟨_, rfl, ?_, ?_, ?_, ?_, ?_, ?_, ?_⟩
    · simp [hlen, hitems]
    · rw [tail_cons, length_append, length_singleton]
      omega
    · simp [hgrown]
    · show (rest ++ [payload]).length ≤ (q.slots.set q.head (some payload)).length
      rw [length_append, length_set]
      omega
    · show (q.head + 1) % q.slots.length ≤ (q.slots.set q.head (some payload)).length - 1
      have hmod : (q.head + 1) % q.slots.length < q.slots.length := Nat.mod_lt _ (by omega)
      rw [length_set]
      omega
    · intro offset hoffset
      rw [length_set] at hoffset
      show (q.slots.set q.head (some payload))[((q.head + 1) % q.slots.length + offset) %
        (q.slots.set q.head (some payload)).length]? = some (rest ++ [payload])[offset]?
      rw [length_set, h.turned hitems (some payload) hoffset]
      by_cases hend : offset + 1 = q.slots.length
      · rw [if_pos hend, getElem?_append_right (by omega)]
        have hplace : offset - rest.length = 0 := by omega
        rw [hplace]
        rfl
      · rw [if_neg hend, getElem?_append_left (by omega)]
    intro hsmall
    rw [length_set] at hsmall
    omega

lemma Holds.tail_eq (h : Holds capacity q items) (hfree : items.length < capacity) :
    (if q.slots.length = 0 then 0 else (q.head + q.len) % capacity) =
      if q.slots.length < capacity then q.head + items.length
      else (q.head + items.length) % q.slots.length := by
  have hgrown := h.grown
  rw [h.len]
  by_cases hsmall : q.slots.length < capacity
  · have hfits := h.straight hsmall
    rw [if_pos hsmall]
    by_cases hnone : q.slots.length = 0
    · rw [if_pos hnone]
      omega
    · rw [if_neg hnone, Nat.mod_eq_of_lt (by omega)]
  · have hsize : q.slots.length = capacity := by omega
    rw [if_neg hsmall, hsize, if_neg (by omega)]

lemma push_slot (h : Holds capacity q items) (payload : α) {place : Nat}
    (hplace : place = (q.head + items.length) % q.slots.length)
    (hroom : items.length < q.slots.length)
    (hstraight : q.slots.length < capacity → q.head + items.length < q.slots.length) :
    Holds capacity { q with slots := q.slots.set place (some payload), len := q.len + 1 }
      (items ++ [payload]) := by
  have hlen := h.len
  have hgrown := h.grown
  have hhead := h.head
  refine ⟨?_, ?_, ?_, ?_, ?_, ?_, ?_⟩
  · rw [length_append, length_singleton, ← hlen]
  · rw [length_append, length_singleton]
    omega
  · simp [hgrown]
  · show (items ++ [payload]).length ≤ (q.slots.set place (some payload)).length
    rw [length_append, length_singleton, length_set]
    omega
  · simp [hhead]
  · intro offset hoffset
    rw [length_set] at hoffset
    rw [length_set, hplace, getElem?_set_wrapped (by omega) hoffset hroom]
    by_cases hself : offset = items.length
    · simp [hself]
    rw [if_neg hself, h.cells offset hoffset]
    rcases Nat.lt_or_gt_of_ne hself with hpre | hbehind
    · rw [getElem?_append_left hpre]
    rw [getElem?_eq_none (by omega), getElem?_eq_none]
    rw [length_append, length_singleton]
    omega
  intro hsmall
  rw [length_set] at hsmall
  show q.head + (items ++ [payload]).length ≤ (q.slots.set place (some payload)).length
  have hfits := hstraight hsmall
  rw [length_append, length_singleton, length_set]
  omega

lemma push_grows (h : Holds capacity q items) (payload : α)
    (hsmall : q.slots.length < capacity) (hend : q.head + items.length = q.slots.length) :
    Holds capacity { q with slots := q.slots ++ [some payload], len := q.len + 1 }
      (items ++ [payload]) := by
  have hlen := h.len
  have hsize : (q.slots ++ [some payload]).length = q.slots.length + 1 := by simp
  have hcount : (items ++ [payload]).length = items.length + 1 := by simp
  refine ⟨?_, ?_, ?_, ?_, ?_, ?_, ?_⟩
  · rw [hcount, ← hlen]
  · omega
  · show (q.slots ++ [some payload]).length ≤ capacity
    omega
  · show (items ++ [payload]).length ≤ (q.slots ++ [some payload]).length
    omega
  · show q.head ≤ (q.slots ++ [some payload]).length - 1
    omega
  · intro offset hoffset
    show (q.slots ++ [some payload])[(q.head + offset) % (q.slots ++ [some payload]).length]? =
      some (items ++ [payload])[offset]?
    rw [hsize] at hoffset ⊢
    rcases Nat.lt_trichotomy (q.head + offset) q.slots.length with hpre | hself | hbehind
    · have hcell := h.cells offset (by omega)
      rw [Nat.mod_eq_of_lt hpre] at hcell
      rw [Nat.mod_eq_of_lt (by omega), getElem?_append_left hpre, hcell,
        getElem?_append_left (by omega)]
    · have hoffsetEq : offset = items.length := by omega
      rw [Nat.mod_eq_of_lt (by omega), hself, hoffsetEq,
        getElem?_append_right le_rfl, getElem?_append_right le_rfl,
        Nat.sub_self, Nat.sub_self]
      rfl
    -- Behind the new slot the offsets turn over to the free ones before the head.
    have hcell := h.cells (offset - 1) (by omega)
    have hplace : (q.head + (offset - 1)) % q.slots.length =
        q.head + offset - (q.slots.length + 1) := by
      rw [Nat.mod_eq_sub_mod (by omega), Nat.mod_eq_of_lt (by omega)]
      omega
    have hturned : (q.head + offset) % (q.slots.length + 1) =
        q.head + offset - (q.slots.length + 1) := by
      rw [Nat.mod_eq_sub_mod (by omega), Nat.mod_eq_of_lt (by omega)]
    have hold : items[offset - 1]? = none := getElem?_eq_none (by omega)
    have hnew : (items ++ [payload])[offset]? = none := getElem?_eq_none (by omega)
    rw [hplace, hold] at hcell
    rw [hturned, getElem?_append_left (by omega), hcell, hnew]
  intro _
  show q.head + (items ++ [payload]).length ≤ (q.slots ++ [some payload]).length
  omega

lemma push_free (h : Holds capacity q items) (hfree : items.length < capacity)
    (allocates : Bool) (payload : α) :
    (allocates = false ∧ q.pushDroppingOldest allocates payload capacity =
        (.error .outOfMemory, q)) ∨
      ∃ q', q.pushDroppingOldest allocates payload capacity = (.ok none, q') ∧
        Holds capacity q' (items ++ [payload]) := by
  have hlen := h.len
  have htail := h.tail_eq hfree
  unfold pushDroppingOldest
  rw [if_neg (by omega), if_pos (by omega), htail]
  by_cases hsmall : q.slots.length < capacity
  · have hfits := h.straight hsmall
    rw [if_pos hsmall]
    by_cases hslot : q.head + items.length < q.slots.length
    · have hplace : q.head + items.length = (q.head + items.length) % q.slots.length :=
        (Nat.mod_eq_of_lt hslot).symm
      have hcell := h.cells items.length (by omega)
      rw [← hplace, getElem?_eq_none le_rfl] at hcell
      rw [if_pos hslot, hcell]
      exact .inr ⟨_, rfl, push_slot h payload hplace (by omega) fun _ => hslot⟩
    rw [if_neg hslot, if_neg (by omega)]
    cases allocates with
    | false => exact .inl ⟨rfl, rfl⟩
    | true => exact .inr ⟨_, rfl, push_grows h payload hsmall (by omega)⟩
  have hcell := h.cells items.length (by omega)
  have hlt : (q.head + items.length) % q.slots.length < q.slots.length :=
    Nat.mod_lt _ (by omega)
  rw [getElem?_eq_none le_rfl] at hcell
  rw [if_neg hsmall, if_pos hlt, hcell]
  exact .inr ⟨_, rfl, push_slot h payload rfl (by omega) fun hlt' => absurd hlt' hsmall⟩

/-- **A call is a call of the bounded queue**, or a push that the allocator refuses and that changes
nothing. -/
theorem step_refines (h : Holds capacity q items) (hcap : capacity ≠ 0) (call : Call α) :
    (∃ payload, call = .push false payload ∧ q.step capacity call = (.error .outOfMemory, q)) ∨
      ∃ q', q.step capacity call = ((fifo capacity items call).1, q') ∧
        Holds capacity q' (fifo capacity items call).2 := by
  cases call with
  | pop => exact .inr (pop_holds h)
  | push allocates payload =>
    have hbnd := h.bounded
    by_cases hfree : items.length < capacity
    · rw [fifo_push_free hfree]
      rcases push_free h hfree allocates payload with ⟨hrefuses, hstep⟩ | hstep
      · exact .inl ⟨payload, by rw [hrefuses], hstep⟩
      · exact .inr hstep
    · rw [fifo_push_full hfree]
      exact .inr (push_full h hcap (by omega) allocates payload)

/-! ### Runs -/

/-- A call on the queue, with what it answered. -/
abbrev Occurrence (α : Type) :=
  Event (DatagramRecvQueue α) (Call α) (Except Failure (Option α))

/-- The allocator has refused the call. -/
def refused (e : Occurrence α) : Bool :=
  match e.output with
  | .error .outOfMemory => true
  | _ => false

/-- The payload that a call brings. -/
def offered : Call α → Option α
  | .push _ payload => some payload
  | .pop => none

/-- The payload that a call has put into the queue. -/
def entered (e : Occurrence α) : Option α :=
  match e.output with
  | .ok _ => offered e.input
  | .error _ => none

/-- The payload that a call has popped or dropped. -/
def left (e : Occurrence α) : Option α :=
  match e.output with
  | .ok gone => gone
  | .error _ => none

/-- A bounded queue neither fails nor loses a payload. -/
theorem fifo_conserves (capacity : Nat) (items : List α) (call : Call α) :
    ∃ gone, (fifo capacity items call).1 = .ok gone ∧
      items ++ (offered call).toList = gone.toList ++ (fifo capacity items call).2 := by
  cases call with
  | pop =>
    refine ⟨items.head?, rfl, ?_⟩
    cases items with
    | nil => rfl
    | cons first rest => exact append_nil _
  | push allocates payload =>
    by_cases hfree : items.length < capacity
    · rw [fifo_push_free hfree]
      exact ⟨none, rfl, rfl⟩
    rw [fifo_push_full hfree]
    refine ⟨items.head?, rfl, ?_⟩
    cases items with
    | nil | cons => rfl

lemma filterMap_cons_toList {β γ : Type} (f : β → Option γ) (b : β) (bs : List β) :
    (b :: bs).filterMap f = (f b).toList ++ bs.filterMap f := by
  rw [filterMap_cons]
  cases f b with
  | none | some => rfl

/-- What a run of the queue has to do with one of a bounded list. -/
structure Refines (capacity : Nat) (q : DatagramRecvQueue α) (items : List α)
    (calls : List (Call α)) : Prop where
  /-- Refused pushes apart, the answers are those of the bounded list. -/
  answers : ((trace (step capacity) q calls).filter (!refused ·)).map (·.output) =
    Lib.answers (fifo capacity) items
      (((trace (step capacity) q calls).filter (!refused ·)).map (·.input))
  /-- And so is what is queued in the end. -/
  contents : (exec (step capacity) q calls).contents = exec (fifo capacity) items
      (((trace (step capacity) q calls).filter (!refused ·)).map (·.input))
  count : (exec (step capacity) q calls).count = (exec (step capacity) q calls).contents.length
  bounded : (exec (step capacity) q calls).count ≤ capacity
  /-- Payloads leave in the order in which they came, each of them once. -/
  once : items ++ (trace (step capacity) q calls).filterMap entered =
    (trace (step capacity) q calls).filterMap left ++ (exec (step capacity) q calls).contents
  /-- A refused push changes nothing. -/
  unchanged : ∀ e ∈ trace (step capacity) q calls, refused e = true →
    e.post = e.pre ∧ ∃ payload, e.input = .push false payload
  /-- No assertion fails, and no index is out of bounds. -/
  sound : ∀ e ∈ trace (step capacity) q calls, e.output ≠ .error .violated

lemma refines_of_holds (hcap : capacity ≠ 0) (calls : List (Call α)) :
    ∀ {q : DatagramRecvQueue α} {items : List α}, Holds capacity q items →
      Refines capacity q items calls := by
  induction calls with
  | nil =>
    intro q items h
    have hcontents := h.contents
    refine ⟨rfl, hcontents, ?_, ?_, ?_, nofun, nofun⟩
    · rw [exec_nil, hcontents]
      exact h.len
    · exact Nat.le_trans (Nat.le_of_eq h.len) h.bounded
    · rw [exec_nil, hcontents]
      simp
  | cons call calls ih =>
    intro q items h
    rcases step_refines h hcap call with ⟨payload, hcall, hstep⟩ | ⟨q', hstep, hnext⟩
    · have hevent : event (step capacity) q call = ⟨q, call, .error .outOfMemory, q⟩ := by
        rw [event, hstep]
      have hrefused : refused (event (step capacity) q call) = true := by rw [hevent]; rfl
      have hstays : (step capacity q call).2 = q := by rw [hstep]
      obtain ⟨hanswers, hcontents, hcount, hbnd, honce, hsame, hsound⟩ := ih h
      refine ⟨?_, ?_, ?_, ?_, ?_, ?_, ?_⟩
      · simp [hstays, hrefused, hanswers]
      · simp [hstays, hrefused, hcontents]
      · simp [hstays, hcount]
      · simp [hstays, hbnd]
      · have hnoEntry : entered (event (step capacity) q call) = none := by rw [hevent]; rfl
        have hnoLeft : left (event (step capacity) q call) = none := by rw [hevent]; rfl
        rw [trace_cons, exec_cons, hstays, filterMap_cons_none hnoEntry,
          filterMap_cons_none hnoLeft]
        exact honce
      · intro e he hrefuses
        rw [trace_cons, mem_cons] at he
        rcases he with rfl | he
        · rw [hevent]
          exact ⟨rfl, payload, hcall⟩
        · rw [hstays] at he
          exact hsame e he hrefuses
      intro e he
      rw [trace_cons, mem_cons] at he
      rcases he with rfl | he
      · simp [hevent]
      · rw [hstays] at he
        exact hsound e he
    obtain ⟨gone, hgone, hconserves⟩ := fifo_conserves capacity items call
    have hevent : event (step capacity) q call = ⟨q, call, .ok gone, q'⟩ := by
      rw [event, hstep, hgone]
    have hserved : refused (event (step capacity) q call) = false := by rw [hevent]; rfl
    have hmoves : (step capacity q call).2 = q' := by rw [hstep]
    obtain ⟨hanswers, hcontents, hcount, hbnd, honce, hsame, hsound⟩ := ih hnext
    refine ⟨?_, ?_, ?_, ?_, ?_, ?_, ?_⟩
    · rw [trace_cons, hmoves, filter_cons_of_pos (by simp [hserved]), map_cons,
        map_cons, hanswers, hevent, answers_cons, hgone]
    · rw [trace_cons, exec_cons, hmoves, filter_cons_of_pos (by simp [hserved]),
        map_cons, exec_cons]
      exact hcontents
    · simp [hmoves, hcount]
    · simp [hmoves, hbnd]
    · have hentered : entered (event (step capacity) q call) = offered call := by
        rw [hevent]
        rfl
      have hleft : left (event (step capacity) q call) = gone := by rw [hevent]; rfl
      rw [trace_cons, exec_cons, hmoves, filterMap_cons_toList, filterMap_cons_toList, hentered,
        hleft, ← append_assoc, hconserves, append_assoc, honce, append_assoc]
    · intro e he hrefuses
      rw [trace_cons, mem_cons] at he
      rcases he with rfl | he
      · simp [hserved] at hrefuses
      · rw [hmoves] at he
        exact hsame e he hrefuses
    intro e he
    rw [trace_cons, mem_cons] at he
    rcases he with rfl | he
    · simp [hevent]
    · rw [hmoves] at he
      exact hsound e he

/--
**The receive queue is a bounded queue that drops its oldest element.**  Whatever is pushed and
popped with one capacity, with an allocator that may refuse any growth, it answers as the list does,
every payload that entered it leaves it once and in its turn, and no assertion or index is violated.
-/
theorem queue_refines_fifo (capacity : Nat) (hcap : capacity ≠ 0) (calls : List (Call α)) :
    Refines capacity ({} : DatagramRecvQueue α) [] calls :=
  refines_of_holds hcap calls (holds_empty capacity)

/-- Two slots and three pushes, the second of them refused at first: the oldest payload is dropped. -/
theorem queue_refines_fifo_two :
    Refines 2 ({} : DatagramRecvQueue Nat) []
        [.push true 1, .push false 2, .push true 2, .push true 3, .pop] ∧
      answers (step 2) ({} : DatagramRecvQueue Nat)
        [.push true 1, .push false 2, .push true 2, .push true 3, .pop] =
          [.ok none, .error .outOfMemory, .ok none, .ok (some 1), .ok (some 2)] :=
  ⟨queue_refines_fifo 2 (by decide) _, rfl⟩

end DatagramRecvQueue

end Netz.Quic
