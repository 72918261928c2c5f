/-
The streaming body reader and the grammar of chunked bodies.

What is left to read is in the buffer and in the transport; where the transport cuts it does not
matter.  Each step of the reader takes the front of what is left, and it succeeds where that is
there and the limits allow it.
-/
import Netz.Http1.BodyReader
import Netz.Proofs.Http1Grammar

namespace Netz.Http1

open Lib List

namespace BodyReader

/-- What has not been consumed. -/
def left (reader : BodyReader) : Bytes := reader.buffered ++ reader.transport.rest

/-- A step that hands `out` on and leaves `rest`. -/
structure Moves (reader next : BodyReader) (out rest : Bytes) : Prop where
  left : next.left = rest
  delivered : next.delivered = reader.delivered ++ out
  limits : next.limits = reader.limits
  options : next.options = reader.options

lemma Moves.refl (reader : BodyReader) : Moves reader reader [] reader.left :=
  ⟨rfl, (append_nil _).symm, rfl, rfl⟩

variable {rest : Bytes} {reader next : BodyReader}
  {maxBufferBytes rounds count maxBytes used total size remaining : Nat} {α : Type}
  {find : Bytes → Except RuntimeError (Option α)} {a : α}

lemma Moves.trans {first second third : BodyReader} {out out' rest' : Bytes}
    (h : Moves first second out rest) (h' : Moves second third out' rest') :
    Moves first third (out ++ out') rest' where
  left := h'.left
  delivered := by rw [h'.delivered, h.delivered, append_assoc]
  limits := h'.limits.trans h.limits
  options := h'.options.trans h.options

lemma buffered_prefix (reader : BodyReader) : reader.buffered <+: reader.left :=
  prefix_append _ _

lemma moves_consumePrefix {len : Nat} (h : len ≤ reader.buffered.length) :
    Moves reader (reader.consumePrefix len) [] (reader.left.drop len) := by
  refine ⟨?_, (append_nil _).symm, rfl, rfl⟩
  show reader.inbuf.drop (reader.offset + len) ++ reader.transport.rest = _
  unfold left
  rw [drop_append_of_le_length h]
  unfold buffered
  rw [drop_drop]

/-! ### Reading on -/

lemma compact_spec (reader : BodyReader) : reader.compact.inbuf = reader.buffered ∧
    reader.compact.buffered = reader.buffered ∧ reader.compact.transport = reader.transport ∧
    reader.compact.delivered = reader.delivered ∧ reader.compact.limits = reader.limits ∧
    reader.compact.options = reader.options := by
  unfold compact
  by_cases hzero : reader.offset = 0
  · simp [hzero, buffered]
  · rw [if_neg hzero]
    exact ⟨rfl, rfl, rfl, rfl, rfl, rfl⟩

lemma readMore_ok (h : reader.readMore maxBufferBytes = .ok next) :
    Moves reader next [] reader.left ∧
      next.transport.rest.length < reader.transport.rest.length ∧ next.buffered.length ≠ 0 := by
  obtain ⟨hinbuf, hbuffered, htransport, hdelivered, hlimits, hopts⟩ := compact_spec reader
  unfold readMore at h
  dsimp only at h
  rw [hinbuf, htransport] at h
  obtain ⟨-, h⟩ := of_guard h nofun
  unfold Transport.readSome at h
  generalize min (min bufferedReadAheadBytes (maxBufferBytes - reader.buffered.length))
    (reader.transport.cuts reader.transport.reads + 1) = count at h
  obtain ⟨hnone, h⟩ := of_guard h nofun
  cases h
  rw [length_take] at hnone
  have hoffset : reader.compact.offset = 0 := by
    unfold compact
    by_cases hzero : reader.offset = 0
    · rw [if_pos hzero, hzero]
    · rw [if_neg hzero]
  refine ⟨⟨?_, ?_, hlimits, hopts⟩, ?_, ?_⟩
  · simp [hoffset, left, buffered]
  · rw [append_nil]
    exact hdelivered
  · dsimp only
    rw [length_drop]
    omega
  unfold buffered
  rw [hoffset, drop_zero, length_append, length_take]
  omega

lemma readMore_total (hroom : reader.buffered.length < maxBufferBytes)
    (hrest : reader.transport.rest ≠ []) : ∃ next, reader.readMore maxBufferBytes = .ok next := by
  obtain ⟨hinbuf, -, htransport, -, -, -⟩ := compact_spec reader
  have hpos : 0 < reader.transport.rest.length := length_pos_of_ne_nil hrest
  unfold readMore
  dsimp only
  rw [hinbuf, htransport, if_neg (by omega)]
  unfold Transport.readSome
  have hahead : 0 < bufferedReadAheadBytes := by decide
  rw [if_neg (by rw [length_take]; omega)]
  exact ⟨_, rfl⟩

/-- **Where the input is cut does not matter for what is found in it.** -/
theorem readUntil_ok (h : readUntil find maxBufferBytes rounds reader = .ok (a, next)) :
    Moves reader next [] reader.left ∧ find next.buffered = .ok (some a) := by
  induction rounds generalizing reader with
  | zero => cases h
  | succ rounds ih =>
    unfold readUntil at h
    cases hfind : find reader.buffered with
    | error e => simp [hfind] at h
    | ok found =>
      rw [hfind] at h
      cases found with
      | some b =>
        cases h
        exact ⟨Moves.refl _, hfind⟩
      | none =>
        cases hread : reader.readMore maxBufferBytes with
        | error e => simp [hread] at h
        | ok more =>
          rw [hread] at h
          obtain ⟨hmoves, -, -⟩ := readMore_ok hread
          obtain ⟨hrest, hfound⟩ := ih h
          rw [hmoves.left] at hrest
          exact ⟨hmoves.trans hrest, hfound⟩

lemma readUntil_total (hfind : find reader.left = .ok (some a))
    (hclosed : ∀ bytes, bytes <+: reader.left → (∃ b, find bytes = .ok (some b)) ∨
      find bytes = .ok none ∧ bytes.length < maxBufferBytes)
    (hfuel : reader.transport.rest.length < rounds) :
    ∃ b next, readUntil find maxBufferBytes rounds reader = .ok (b, next) := by
  induction rounds generalizing reader with
  | zero => omega
  | succ rounds ih =>
    unfold readUntil
    rcases hclosed reader.buffered reader.buffered_prefix with ⟨b, hb⟩ | ⟨hnone, hroom⟩
    · simp [hb]
    rw [hnone]
    have hrest : reader.transport.rest ≠ [] := by
      intro hempty
      simp [hempty, hnone, left] at hfind
    obtain ⟨more, hread⟩ := readMore_total hroom hrest
    obtain ⟨hmoves, hless, -⟩ := readMore_ok hread
    rw [hread]
    exact @ih more (by rw [hmoves.left]; exact hfind) (by rw [hmoves.left]; exact hclosed)
      (by omega)

/-! ### The steps -/

lemma requireBytes_ok (h : reader.requireBytes count = .ok next) :
    Moves reader next [] reader.left ∧ count ≤ next.buffered.length := by
  unfold requireBytes at h
  obtain ⟨⟨_, found⟩, hread, h⟩ := bind_eq_ok h
  cases h
  obtain ⟨hmoves, hfound⟩ := readUntil_ok hread
  refine ⟨hmoves, ?_⟩
  unfold findBytes at hfound
  obtain ⟨hshort, hfound⟩ := of_guard hfound nofun
  exact not_lt.mp hshort

lemma requireBytes_total (h : count ≤ reader.left.length) :
    ∃ next, reader.requireBytes count = .ok next := by
  have hfind : findBytes count reader.left = .ok (some ()) := by simp [not_lt.mpr h, findBytes]
  have hclosed : ∀ bytes, bytes <+: reader.left → (∃ b, findBytes count bytes = .ok (some b)) ∨
      findBytes count bytes = .ok none ∧ bytes.length < count := by
    intro bytes _
    unfold findBytes
    by_cases hshort : bytes.length < count
    · exact .inr ⟨if_pos hshort, hshort⟩
    · exact .inl ⟨(), if_neg hshort⟩
  obtain ⟨_, next, hread⟩ := readUntil_total hfind hclosed (Nat.lt_succ_self _)
  simp [hread, requireBytes, rounds]

lemma lift_eq_ok {x : Except Error α} (h : RuntimeError.lift x = .ok a) : x = .ok a := by
  cases x with
  | error e => cases h
  | ok b =>
    cases h
    rfl

lemma foundChunkLine {found : BodyReader} {lineEnd : Nat}
    (h : readUntil (findChunkLine maxBytes) maxBytes rounds reader = .ok (lineEnd, found)) :
    Moves reader found [] reader.left ∧ lineEnd + 2 ≤ found.buffered.length ∧
      Line (found.buffered.take lineEnd) ∧ reader.left =
        found.buffered.take lineEnd ++ crlf ++ found.left.drop (lineEnd + 2) := by
  obtain ⟨hmoves, hfound⟩ := readUntil_ok h
  have hidx : indexOf crlf found.buffered = some lineEnd := by
    unfold findChunkLine at hfound
    cases hidx : indexOf crlf found.buffered with
    | some i =>
      rw [hidx] at hfound
      cases hfound
      rfl
    | none =>
      rw [hidx] at hfound
      dsimp only at hfound
      split at hfound <;> cases hfound
  obtain ⟨hline, hsplit⟩ := line_of_indexOf hidx
  have hroom : lineEnd + 2 ≤ found.buffered.length := indexOf_le hidx
  refine ⟨hmoves, hroom, hline, ?_⟩
  rw [← hmoves.left]
  unfold left
  rw [drop_append_of_le_length hroom, ← append_assoc, ← hsplit]

lemma readChunkSize_ok (h : reader.readChunkSize used maxBytes = .ok (size, total, next)) :
    ∃ line rest, reader.left = line ++ crlf ++ rest ∧ Line line ∧
      countExtension used line = .ok total ∧ chunkSize line = .ok size ∧
      Moves reader next [] rest := by
  unfold readChunkSize at h
  obtain ⟨⟨lineEnd, found⟩, hread, h⟩ := bind_eq_ok h
  obtain ⟨_, hext, h⟩ := bind_eq_ok h
  obtain ⟨_, hsize, h⟩ := bind_eq_ok h
  cases h
  obtain ⟨hmoves, hroom, hline, hleft⟩ := foundChunkLine hread
  exact ⟨_, _, hleft, hline, lift_eq_ok hext, lift_eq_ok hsize,
    hmoves.trans (moves_consumePrefix hroom)⟩

lemma readChunkSize_total {line : Bytes} (hleft : reader.left = line ++ crlf ++ rest)
    (hline : Line line) (hshort : line.length + 2 ≤ maxBytes)
    (hext : countExtension used line = .ok total) (hsize : chunkSize line = .ok size) :
    ∃ next, reader.readChunkSize used maxBytes = .ok (size, total, next) := by
  have hidx : indexOf crlf reader.left = some line.length := by
    rw [hleft]
    exact hline.indexOf rest
  have hfind : findChunkLine maxBytes reader.left = .ok (some line.length) := by
    unfold findChunkLine
    rw [hidx]
  have hclosed : ∀ bytes, bytes <+: reader.left →
      (∃ b, findChunkLine maxBytes bytes = .ok (some b)) ∨
        findChunkLine maxBytes bytes = .ok none ∧ bytes.length < maxBytes := by
    intro bytes hprefix
    unfold findChunkLine
    cases hbytes : indexOf crlf bytes with
    | some i => exact .inl ⟨i, rfl⟩
    | none =>
      -- A buffer that is full would hold the line.
      have hlt : bytes.length < maxBytes := by
        by_contra hlong
        obtain ⟨more, hmore⟩ := hprefix
        rw [← hmore] at hidx
        have hroom : line.length + crlf.length ≤ bytes.length :=
          hshort.trans (not_lt.mp hlong)
        rw [indexOf_of_append hidx hroom] at hbytes
        cases hbytes
      exact .inr ⟨if_neg (by omega), hlt⟩
  obtain ⟨lineEnd, found, hread⟩ := readUntil_total hfind hclosed (Nat.lt_succ_self _)
  obtain ⟨-, -, hfound, hleft'⟩ := foundChunkLine hread
  obtain ⟨hsame, -⟩ := hfound.unique hline (hleft'.symm.trans hleft)
  refine ⟨found.consumePrefix (lineEnd + 2), ?_⟩
  unfold readChunkSize rounds
  rw [hread]
  dsimp only [bind, Except.bind]
  rw [hsame, hext, hsize]
  rfl

lemma moves_handOn (h : count ≤ reader.buffered.length) :
    Moves reader (reader.handOn count) (reader.left.take count) (reader.left.drop count) := by
  obtain ⟨hleft, -, -, -⟩ := moves_consumePrefix h
  refine ⟨hleft, ?_, rfl, rfl⟩
  show reader.delivered ++ reader.buffered.take count = _
  unfold left
  rw [take_append_of_le_length h]

lemma fill_ok {filled : BodyReader} (h : reader.fill = .ok filled) :
    Moves reader filled [] reader.left ∧ filled.buffered.length ≠ 0 := by
  unfold fill at h
  by_cases hempty : reader.buffered.length = 0
  · rw [if_pos hempty] at h
    obtain ⟨hmoves, -, hsome⟩ := readMore_ok h
    exact ⟨hmoves, hsome⟩
  rw [if_neg hempty] at h
  cases h
  exact ⟨Moves.refl _, hempty⟩

lemma fill_total (h : reader.left ≠ []) : ∃ filled, reader.fill = .ok filled := by
  unfold fill
  by_cases hempty : reader.buffered.length = 0
  · rw [if_pos hempty]
    refine readMore_total (by rw [hempty]; decide) fun hrest => h ?_
    unfold left
    rw [hrest, eq_nil_of_length_eq_zero hempty, append_nil]
  · simp [hempty]

lemma readData_ok (h : readData rounds remaining reader = .ok next) :
    ∃ data rest, reader.left = data ++ rest ∧ data.length = remaining ∧
      Moves reader next data rest := by
  induction rounds generalizing remaining reader with
  | zero => cases h
  | succ rounds ih =>
    unfold readData at h
    by_cases hzero : remaining = 0
    · rw [if_pos hzero] at h
      cases h
      exact ⟨[], _, rfl, hzero.symm, Moves.refl _⟩
    rw [if_neg hzero] at h
    obtain ⟨filled, hfilled, h⟩ := bind_eq_ok h
    obtain ⟨hmoves, -⟩ := fill_ok hfilled
    have hcount : min remaining filled.buffered.length ≤ filled.buffered.length :=
      Nat.min_le_right _ _
    have hroom := hcount.trans filled.buffered_prefix.length_le
    have hless : min remaining filled.buffered.length ≤ remaining := Nat.min_le_left _ _
    generalize min remaining filled.buffered.length = count at h hcount hroom hless
    have hhanded := moves_handOn hcount
    obtain ⟨data, rest, hleft, hlen, hrest⟩ := ih h
    rw [hhanded.left] at hleft
    rw [hmoves.left] at hhanded hleft hroom
    refine ⟨reader.left.take count ++ data, rest, ?_, ?_, hmoves.trans (hhanded.trans hrest)⟩
    · rw [append_assoc, ← hleft, take_append_drop]
    · rw [length_append, length_take_of_le hroom]
      omega

lemma readData_total (h : remaining ≤ reader.left.length) (hfuel : remaining < rounds) :
    ∃ next, readData rounds remaining reader = .ok next := by
  induction rounds generalizing remaining reader with
  | zero => omega
  | succ rounds ih =>
    unfold readData
    by_cases hzero : remaining = 0
    · exact ⟨reader, if_pos hzero⟩
    rw [if_neg hzero]
    have hsome : reader.left ≠ [] := by
      intro hnil
      simp [hnil, hzero] at h
    obtain ⟨filled, hfilled⟩ := fill_total hsome
    obtain ⟨hmoves, hne⟩ := fill_ok hfilled
    rw [hfilled]
    have hhanded := moves_handOn (Nat.min_le_right remaining filled.buffered.length)
    refine ih ?_ (by omega)
    rw [hhanded.left, hmoves.left, length_drop]
    omega

end BodyReader

end Netz.Http1
