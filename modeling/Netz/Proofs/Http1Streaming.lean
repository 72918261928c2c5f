/-
The streaming body reader agrees with the whole-message parser, up to chunk extensions.

Both accept chunked bodies of one grammar with the same trailers.  The parser looks for CR and LF
in the extensions of the chunk lines, and the reader does not.
-/
import Netz.Proofs.Http1BodyReader
import Netz.Proofs.Http1Chunked

namespace Netz.Http1

open Lib List
open Http (ascii)

/-! ### Trailers -/

lemma parseHeaderLine_eq_ok_iff {line : Bytes} {header : Header} :
    parseHeaderLine line false = .ok header ↔ 0x3a ∈ line ∧
      validateHeaderName (trailerField line).name = .ok () ∧
      validateHeaderValue (trailerField line).value = .ok () ∧ header = trailerField line := by
  unfold parseHeaderLine
  by_cases hcolon : 0x3a ∈ line
  · rw [if_pos hcolon]
    dsimp only
    rw [if_neg Bool.false_ne_true]
    unfold trailerField
    cases hname : validateHeaderName (line.takeWhile (· != 0x3a)) with
    | error e => exact iff_of_false nofun fun h => nomatch h.2.1
    | ok _ =>
      cases validateHeaderValue (trimOws (line.drop ((line.takeWhile (· != 0x3a)).length + 1))) with
      | error e => exact iff_of_false nofun fun h => nomatch h.2.2.1
      | ok _ =>
        rw [Except.ok.injEq]
        exact ⟨fun h => ⟨hcolon, rfl, rfl, h.symm⟩, fun h => h.2.2.2.symm⟩
  · simp [hcolon]

variable {options : ParseOptions} {lines : List Bytes} {count total : Nat}

lemma countTrailerLines_eq_ok_iff : countTrailerLines options lines count = .ok total ↔
      countHeaderLines options {} lines count = .ok total := by
  induction lines generalizing count with
  | nil => exact Iff.rfl
  | cons line lines ih =>
    unfold countTrailerLines countHeaderLines
    by_cases hempty : line.length = 0
    · rw [if_pos hempty, if_pos hempty]
      exact ih
    rw [if_neg hempty, if_neg hempty]
    cases isContinuation line with
    | true => exact Iff.rfl
    | false =>
      rw [if_neg Bool.false_ne_true, if_neg Bool.false_ne_true]
      cases hparsed : parseHeaderLine line false with
      | error e =>
        refine iff_of_false (fun h => ?_) (fun h => by cases h)
        split at h
        · cases h
        split at h
        · obtain ⟨_, hname, h⟩ := bind_eq_ok h
          obtain ⟨_, hvalue, h⟩ := bind_eq_ok h
          have hok := parseHeaderLine_eq_ok_iff.mpr ⟨by assumption, hname, hvalue, rfl⟩
          simp [hparsed] at hok
        · cases h
      | ok header =>
        obtain ⟨hcolon, hname, hvalue, -⟩ := parseHeaderLine_eq_ok_iff.mp hparsed
        by_cases hmany : options.maxHeaders ≤ count
        · rw [if_pos hmany, if_pos hmany]
        · rw [if_neg hmany, if_neg hmany, if_pos hcolon, hname, hvalue]
          exact ih

lemma filterMap_fillHeader (h : countHeaderLines options {} lines count = .ok total) :
    lines.filterMap (fillHeader {}) =
      (lines.filter fun line => line.length ≠ 0).map trailerField := by
  induction lines generalizing count with
  | nil => rfl
  | cons line lines ih =>
    unfold countHeaderLines at h
    by_cases hempty : line.length = 0
    · rw [if_pos hempty] at h
      have hnone : fillHeader {} line = none := if_pos hempty
      rw [filterMap_cons_none hnone, filter_cons_of_neg (by rw [hempty]; decide)]
      exact ih h
    rw [if_neg hempty] at h
    cases hcont : isContinuation line with
    | true =>
      rw [hcont] at h
      cases h
    | false =>
      rw [hcont, if_neg Bool.false_ne_true] at h
      cases hparsed : parseHeaderLine line false with
      | error e =>
        rw [hparsed] at h
        cases h
      | ok header =>
        rw [hparsed] at h
        dsimp only at h
        split at h
        · cases h
        have hholds : Holds {} line header := ⟨hempty, hcont, hparsed⟩
        obtain ⟨-, -, -, rfl⟩ := parseHeaderLine_eq_ok_iff.mp hparsed
        have hkeep : decide (line.length ≠ 0) = true := decide_eq_true hempty
        rw [filterMap_cons_some hholds.fillHeader, filter_cons, if_pos hkeep,
          map_cons, ih h]

/-- **The trailers of a block are the fields on its lines.** -/
theorem parseTrailerBlock_eq_ok_iff {block : Bytes} {headers : List Header}
    (hfold : options.allowObsFold = false) :
    parseTrailerBlock (block ++ blank) options = .ok headers ↔
      parseHeaderLines (splitLines block) options {} = .ok headers := by
  have hblock : (block ++ blank).take ((block ++ blank).length - 4) = block := by
    rw [length_append]
    exact take_left' rfl
  unfold parseTrailerBlock parseHeaderLines parseHeaderLinesNoFold
  rw [hblock, hfold]
  dsimp only
  constructor
  · intro h
    obtain ⟨total, hcount, h⟩ := bind_eq_ok h
    have hhdrs := countTrailerLines_eq_ok_iff.mp hcount
    rw [hhdrs, filterMap_fillHeader hhdrs]
    exact h
  intro h
  obtain ⟨total, hcount, h⟩ := bind_eq_ok h
  rw [filterMap_fillHeader hcount] at h
  rw [countTrailerLines_eq_ok_iff.mpr hcount]
  exact h

lemma findHeadEnd_eq (bytes : Bytes) (maxHeadBytes : Nat) : findHeadEnd bytes maxHeadBytes =
    match indexOf blank bytes with
    | some headEnd =>
      if maxHeadBytes < headEnd + 4 then .error .headersTooLarge else .ok (some headEnd)
    | none => if maxHeadBytes ≤ bytes.length then .error .headersTooLarge else .ok none := rfl

namespace BodyReader

variable {reader next : BodyReader} {rounds len : Nat} {headers trailers : List Header}
  {body : Bytes}

lemma foundTrailerEnd {found : BodyReader} {maxHeadBytes trailerEnd : Nat}
    (h : readUntil (fun bytes => findHeadEnd bytes maxHeadBytes) maxHeadBytes rounds reader =
      .ok (trailerEnd, found)) :
    Moves reader found [] reader.left ∧ trailerEnd + 4 ≤ found.buffered.length ∧
      indexOf blank reader.left = some trailerEnd ∧
      found.buffered.take (trailerEnd + 4) = reader.left.take trailerEnd ++ blank := by
  obtain ⟨hmoves, hfound⟩ := readUntil_ok h
  have hidx : indexOf blank found.buffered = some trailerEnd := by
    rw [findHeadEnd_eq] at hfound
    cases hidx : indexOf blank found.buffered with
    | some headEnd =>
      rw [hidx] at hfound
      dsimp only at hfound
      split at hfound <;> cases hfound
      rfl
    | none =>
      rw [hidx] at hfound
      dsimp only at hfound
      split at hfound <;> cases hfound
  have hroom : trailerEnd + 4 ≤ found.buffered.length := indexOf_le hidx
  refine ⟨hmoves, hroom, ?_, ?_⟩
  · rw [← hmoves.left]
    exact indexOf_append hidx _
  rw [← hmoves.left]
  unfold left
  rw [take_append_of_le_length (by omega)]
  have hsplit := eq_of_indexOf hidx
  have hlen : (found.buffered.take trailerEnd ++ blank).length = trailerEnd + 4 := by
    rw [length_append, length_take_of_le (by omega)]
    rfl
  calc found.buffered.take (trailerEnd + 4)
      = (found.buffered.take trailerEnd ++ blank ++
          found.buffered.drop (trailerEnd + blank.length)).take (trailerEnd + 4) := by
        rw [← hsplit]
    _ = found.buffered.take trailerEnd ++ blank := take_left' hlen

/-- Two bytes in the buffer tell whether the trailers are empty. -/
theorem crlf_prefix_buffered (h : 2 ≤ reader.buffered.length) :
    crlf <+: reader.buffered ↔ crlf <+: reader.left :=
  ⟨fun hpre => hpre.trans reader.buffered_prefix,
    fun hpre => prefix_of_prefix_length_le hpre reader.buffered_prefix h⟩

lemma readTrailers_ok (hfold : reader.options.allowObsFold = false)
    (h : reader.readTrailers = .ok (headers, next)) :
    ∃ len, decodeTrailers reader.left reader.options = .ok (headers, len) ∧
      Moves reader next [] (reader.left.drop len) := by
  unfold readTrailers at h
  obtain ⟨required, hreq, h⟩ := bind_eq_ok h
  obtain ⟨hmoves, hroom⟩ := requireBytes_ok hreq
  by_cases hempty : crlf <+: required.buffered
  · rw [if_pos hempty] at h
    cases h
    rw [crlf_prefix_buffered hroom, hmoves.left] at hempty
    have hused := hmoves.trans (moves_consumePrefix hroom)
    rw [hmoves.left] at hused
    exact ⟨2, decodeTrailers_eq_ok_iff.mpr (.inl ⟨hempty, rfl, rfl⟩), hused⟩
  rw [if_neg hempty] at h
  rw [crlf_prefix_buffered hroom, hmoves.left] at hempty
  obtain ⟨⟨trailerEnd, found⟩, hread, h⟩ := bind_eq_ok h
  obtain ⟨parsed, hparsed, h⟩ := bind_eq_ok h
  obtain ⟨_, hvalid, h⟩ := bind_eq_ok h
  cases h
  obtain ⟨hfound, hend, hblank, htake⟩ := foundTrailerEnd hread
  have hopts : required.options.allowObsFold = false := by
    rw [hmoves.options, hfold]
  have hblock := lift_eq_ok hparsed
  rw [htake, parseTrailerBlock_eq_ok_iff hopts, hmoves.options, hmoves.left] at hblock
  rw [hmoves.left] at hblank
  have hused := (hmoves.trans hfound).trans (moves_consumePrefix hend)
  rw [hfound.left, hmoves.left] at hused
  exact ⟨trailerEnd + 4, decodeTrailers_eq_ok_iff.mpr
    (.inr ⟨hempty, trailerEnd, hblank, rfl, hblock, lift_eq_ok hvalid⟩), hused⟩

lemma readTrailers_total (hfold : reader.options.allowObsFold = false)
    (h : decodeTrailers reader.left reader.options = .ok (headers, len))
    (hlim : len = 2 ∨ len ≤ reader.limits.maxHeadBytes) :
    ∃ trailers next, reader.readTrailers = .ok (trailers, next) := by
  have hcases := decodeTrailers_eq_ok_iff.mp h
  obtain ⟨required, hreq⟩ := requireBytes_total (length_of_decodeTrailers h)
  obtain ⟨hmoves, hroom⟩ := requireBytes_ok hreq
  unfold readTrailers
  rw [hreq]
  dsimp only [bind, Except.bind]
  by_cases hempty : crlf <+: required.buffered
  · rw [if_pos hempty]
    exact ⟨_, _, rfl⟩
  rw [if_neg hempty]
  rw [crlf_prefix_buffered hroom, hmoves.left] at hempty
  rcases hcases with ⟨hpre, -⟩ | ⟨-, trailerEnd, hblank, rfl, hparsed, hvalid⟩
  · exact absurd hpre hempty
  have hmax : trailerEnd + 4 ≤ required.limits.maxHeadBytes := by
    rw [hmoves.limits]
    omega
  rw [← hmoves.left] at hblank
  have hfind : findHeadEnd required.left required.limits.maxHeadBytes = .ok (some trailerEnd) := by
    rw [findHeadEnd_eq, hblank]
    exact if_neg (not_lt.mpr hmax)
  have hclosed : ∀ bytes, bytes <+: required.left →
      (∃ b, findHeadEnd bytes required.limits.maxHeadBytes = .ok (some b)) ∨
        findHeadEnd bytes required.limits.maxHeadBytes = .ok none ∧
          bytes.length < required.limits.maxHeadBytes := by
    rintro bytes ⟨more, hmore⟩
    rw [findHeadEnd_eq]
    cases hbytes : indexOf blank bytes with
    | some headEnd =>
      have hsame := indexOf_append hbytes more
      rw [hmore, hblank] at hsame
      cases hsame
      exact .inl ⟨trailerEnd, if_neg (not_lt.mpr hmax)⟩
    | none =>
      have hlt : bytes.length < required.limits.maxHeadBytes := by
        by_contra hlong
        rw [← hmore] at hblank
        have hroom' : trailerEnd + blank.length ≤ bytes.length :=
          hmax.trans (not_lt.mp hlong)
        rw [indexOf_of_append hblank hroom'] at hbytes
        cases hbytes
      exact .inr ⟨if_neg (by omega), hlt⟩
  obtain ⟨headEnd, found, hread⟩ := readUntil_total hfind hclosed (Nat.lt_succ_self _)
  obtain ⟨hfound, -, hblank', htake⟩ := foundTrailerEnd hread
  rw [hblank] at hblank'
  cases hblank'
  have hopts : required.options.allowObsFold = false := by
    rw [hmoves.options, hfold]
  have hblock : parseTrailerBlock (found.buffered.take (trailerEnd + 4)) required.options =
      .ok headers := by
    rw [htake, parseTrailerBlock_eq_ok_iff hopts, hmoves.options, hmoves.left]
    exact hparsed
  unfold rounds
  rw [hread]
  dsimp only
  rw [hblock]
  dsimp only [RuntimeError.lift]
  rw [hvalid]
  exact ⟨_, _, rfl⟩

/-! ### The body -/

/-- **What the reader accepts is a chunked body with its trailers**, and it has handed the data of
the chunks on. -/
theorem chunkedLoop_ok {total used : Nat} {result : BodyResult}
    (hfold : reader.options.allowObsFold = false)
    (h : chunkedLoop rounds total used reader = .ok (result, next)) :
    ∃ body lines tail len, Body used reader.left body lines tail ∧
      decodeTrailers tail reader.options = .ok (result.trailers, len) ∧
      Moves reader next body (tail.drop len) := by
  induction rounds generalizing total used reader with
  | zero => cases h
  | succ rounds ih =>
    unfold chunkedLoop at h
    obtain ⟨⟨size, extensionBytes, sized⟩, hsize, h⟩ := bind_eq_ok h
    obtain ⟨line, rest, hleft, hline, hext, hchunk, hsized⟩ := readChunkSize_ok hsize
    dsimp only at h
    by_cases hzero : size = 0
    · rw [if_pos hzero] at h
      obtain ⟨⟨trailers, done⟩, htrail, h⟩ := bind_eq_ok h
      cases h
      obtain ⟨len, hdec, hdone⟩ :=
        readTrailers_ok (by rw [hsized.options, hfold]) htrail
      rw [hsized.left, hsized.options] at hdec
      rw [hsized.left] at hdone
      rw [hzero] at hchunk
      refine ⟨[], [line], rest, len, ?_, hdec, hsized.trans hdone⟩
      rw [hleft]
      exact Body.last hline hext hchunk
    rw [if_neg hzero] at h
    obtain ⟨sum, -, h⟩ := bind_eq_ok h
    obtain ⟨read, hread, h⟩ := bind_eq_ok h
    obtain ⟨ended, hended, h⟩ := bind_eq_ok h
    obtain ⟨data, behind, hdata, hlen, hmoved⟩ := readData_ok hread
    obtain ⟨hended, hroom⟩ := requireBytes_ok hended
    rw [hsized.left] at hdata
    obtain ⟨hends, h⟩ := of_guard h nofun
    have hused := moves_consumePrefix hroom
    have hmoves := ((hsized.trans hmoved).trans hended).trans hused
    obtain ⟨body, lines, tail, len, hbody, hdec, hnext⟩ :=
      ih (by rw [hmoves.options, hfold]) h
    have hbehind : behind = crlf ++ ended.left.drop 2 := by
      rw [← hmoved.left, ← hended.left]
      conv => lhs; rw [← take_append_drop 2 ended.left]
      simp [take_append_of_le_length hroom, not_not.mp hends, left]
    rw [hmoves.left] at hbody
    rw [hmoves.options] at hdec
    have hsplit : reader.left = line ++ crlf ++ (data ++ crlf ++ ended.left.drop 2) := by
      rw [hleft, hdata, hbehind, append_assoc data]
    have hwhole := hmoves.trans hnext
    rw [append_nil, append_nil] at hwhole
    refine ⟨data ++ body, line :: lines, tail, len, ?_, hdec, hwhole⟩
    rw [hsplit]
    refine Body.chunk hline hext (by rw [hlen]; exact hchunk) ?_ hbody
    rintro rfl
    exact hzero hlen.symm

lemma addBodyBytes_total {current additional maximum : Nat}
    (hmax : current + additional ≤ maximum) (husize : current + additional ≤ maxUsize) :
    addBodyBytes current additional maximum = .ok (current + additional) := by
  simp [(not_lt.mpr husize), not_lt.mpr hmax, addBodyBytes]

/-- The limits of the reader are not reached. -/
structure WithinLimits (limits : Limits) (body : Bytes) (lines : List Bytes) (len : Nat) : Prop where
  lines : ∀ line ∈ lines, line.length + 2 ≤ maxChunkExtensionBytes + 32
  body : body.length ≤ limits.maxBodyBytes
  trailers : len = 2 ∨ len ≤ limits.maxHeadBytes

/-- A message that is shorter than every limit. -/
theorem withinLimits_of_length {limits : Limits} {input tail : Bytes} {lines : List Bytes}
    {options : ParseOptions} (hlines : input.length ≤ maxChunkExtensionBytes + 32)
    (hmaxBody : input.length ≤ limits.maxBodyBytes) (hmaxHead : input.length ≤ limits.maxHeadBytes)
    (h : Body 0 input body lines tail)
    (htrail : decodeTrailers tail options = .ok (trailers, len)) :
    WithinLimits limits body lines len := by
  obtain ⟨front, rfl, hlen⟩ := h.suffix
  have hline := h.length_of_mem
  rw [length_append] at hlines hmaxBody hmaxHead hline
  refine ⟨fun line hmem => Nat.le_trans (hline line hmem) hlines, by omega, ?_⟩
  rcases decodeTrailers_eq_ok_iff.mp htrail with ⟨-, -, htwo⟩ | ⟨-, trailerEnd, hblank, rfl, -⟩
  · exact .inl htwo
  · have hroom : trailerEnd + 4 ≤ tail.length := indexOf_le hblank
    exact .inr (by omega)

/-- **The reader accepts a chunked body with its trailers.** -/
theorem chunkedLoop_total {rounds total used len : Nat} {reader : BodyReader}
    {body tail : Bytes} {lines : List Bytes} {trailers : List Header}
    (hfold : reader.options.allowObsFold = false) (h : Body used reader.left body lines tail)
    (htrail : decodeTrailers tail reader.options = .ok (trailers, len))
    (hlines : ∀ line ∈ lines, line.length + 2 ≤ maxChunkExtensionBytes + 32)
    (hbody : total + body.length ≤ reader.limits.maxBodyBytes)
    (husize : total + body.length ≤ maxUsize)
    (hlen : len = 2 ∨ len ≤ reader.limits.maxHeadBytes) (hfuel : reader.left.length < rounds) :
    ∃ result next, chunkedLoop rounds total used reader = .ok (result, next) := by
  generalize hinput : reader.left = input at h
  induction h generalizing rounds total reader with
  | @last used extensions line tail hline hext hsize =>
    cases rounds with
    | zero => omega
    | succ rounds =>
      obtain ⟨sized, hsized⟩ := readChunkSize_total hinput hline
        (hlines line mem_cons_self) hext hsize
      obtain ⟨line', rest, hleft, hline', -, -, hmoves⟩ := readChunkSize_ok hsized
      rw [hinput] at hleft
      obtain ⟨-, rfl⟩ := hline.unique hline' hleft
      unfold chunkedLoop
      rw [hsized]
      dsimp only [bind, Except.bind]
      rw [← hmoves.left, ← hmoves.options] at htrail
      rw [← hmoves.limits] at hlen
      obtain ⟨headers, done, hdone⟩ :=
        readTrailers_total (by rw [hmoves.options, hfold]) htrail hlen
      rw [hdone]
      exact ⟨_, _, rfl⟩
  | @chunk used extensions line data rest body tail lines hline hext hsize hdata hrest ih =>
    have hlength := congrArg length hinput
    simp only [length_append] at hlength
    have hcrlf : crlf.length = 2 := rfl
    rw [length_append, ← Nat.add_assoc] at hbody husize
    cases rounds with
    | zero => omega
    | succ rounds =>
      obtain ⟨sized, hsized⟩ := readChunkSize_total hinput hline
        (hlines line mem_cons_self) hext hsize
      obtain ⟨line', behind, hleft, hline', -, -, hmoves⟩ := readChunkSize_ok hsized
      rw [hinput] at hleft
      obtain ⟨-, rfl⟩ := hline.unique hline' hleft
      have hnonzero : data.length ≠ 0 := fun hzero => hdata (eq_nil_of_length_eq_zero hzero)
      have hsum : addBodyBytes total data.length sized.limits.maxBodyBytes =
          .ok (total + data.length) := by
        rw [hmoves.limits]
        exact addBodyBytes_total (by omega) (by omega)
      have hroom : data.length ≤ sized.left.length := by simp [hmoves.left]
      obtain ⟨read, hread⟩ := readData_total hroom (Nat.lt_succ_self _)
      obtain ⟨taken, after, hsplit, htaken, hmoved⟩ := readData_ok hread
      rw [hmoves.left, append_assoc] at hsplit
      obtain ⟨rfl, hafter⟩ := append_inj hsplit htaken.symm
      have htwo : 2 ≤ read.left.length := by
        rw [hmoved.left, ← hafter, length_append]
        omega
      obtain ⟨ended, hended⟩ := requireBytes_total htwo
      obtain ⟨hmovedEnd, hendRoom⟩ := requireBytes_ok hended
      have hleftEnd : ended.left = crlf ++ rest := by
        rw [hmovedEnd.left, hmoved.left, hafter]
      have hends : ended.buffered.take 2 = crlf := by
        have htake : ended.left.take 2 = crlf := by
          rw [hleftEnd]
          rfl
        simp [← htake, take_append_of_le_length hendRoom, left]
      have hwhole := ((hmoves.trans hmoved).trans hmovedEnd).trans (moves_consumePrefix hendRoom)
      have hrestLeft : (ended.consumePrefix 2).left = rest := by
        rw [hwhole.left, hleftEnd]
        rfl
      unfold chunkedLoop
      rw [hsized]
      dsimp only [bind, Except.bind]
      rw [if_neg hnonzero, hsum, hread]
      dsimp only
      rw [hended]
      dsimp only
      rw [if_neg (not_not.mpr hends)]
      refine @ih rounds (total + data.length) (ended.consumePrefix 2) ?_ ?_
        (fun other hother => hlines other (mem_cons_of_mem _ hother)) ?_ husize ?_ ?_ hrestLeft
      · rw [hwhole.options, hfold]
      · simp [hwhole.options, htrail]
      · simp [hwhole.limits, hbody]
      · simp [hwhole.limits, hlen]
      · rw [hrestLeft]
        omega

/-- **The reader gets through where there is a chunked body with its trailers.** -/
theorem readChunked_iff {rest : Bytes} (hfold : reader.options.allowObsFold = false)
    (husize : reader.left.length ≤ maxUsize)
    (hlimits : ∀ body lines tail trailers len, Body 0 reader.left body lines tail →
      decodeTrailers tail reader.options = .ok (trailers, len) →
      WithinLimits reader.limits body lines len) :
    (∃ result next, reader.readChunked = .ok (result, next) ∧ result.trailers = trailers ∧
      next.delivered = reader.delivered ++ body ∧ next.left = rest) ↔
    ∃ lines tail len, Body 0 reader.left body lines tail ∧
      decodeTrailers tail reader.options = .ok (trailers, len) ∧ rest = tail.drop len := by
  constructor
  · rintro ⟨result, next, hread, rfl, hdelivered, rfl⟩
    obtain ⟨body', lines, tail, len, hbody, htrailers, hmoves⟩ := chunkedLoop_ok hfold hread
    rw [hmoves.delivered] at hdelivered
    rw [append_cancel_left hdelivered] at hbody
    exact ⟨lines, tail, len, hbody, htrailers, hmoves.left⟩
  rintro ⟨lines, tail, len, hbody, htrailers, rfl⟩
  obtain ⟨hlines, hmax, hlen⟩ := hlimits _ _ _ _ _ hbody htrailers
  obtain ⟨front, hfront, hlength⟩ := hbody.suffix
  have hwhole := congrArg length hfront
  rw [length_append] at hwhole
  have hfuel : reader.left.length < reader.buffered.length + reader.transport.rest.length + 1 := by
    simp [left]
  obtain ⟨result, next, hread⟩ := @chunkedLoop_total _ 0 0 len reader body tail lines trailers
    hfold hbody htrailers hlines (by omega) (by omega) hlen hfuel
  obtain ⟨body', lines', tail', len', hbody', htrailers', hmoves⟩ := chunkedLoop_ok hfold hread
  obtain ⟨rfl, -, rfl⟩ := hbody.unique hbody'
  rw [htrailers, Except.ok.injEq] at htrailers'
  obtain ⟨rfl, rfl⟩ := htrailers'
  exact ⟨result, next, hread, rfl, hmoves.delivered, hmoves.left⟩

/-- **The reader and the parser agree exactly where no extension has CR or LF in it**, whatever is
in the buffer and however the transport cuts the rest. -/
theorem body_reader_agrees {reader : BodyReader} (hfold : reader.options.allowObsFold = false)
    (husize : reader.left.length ≤ maxUsize)
    (hlimits : ∀ body lines tail trailers len, Body 0 reader.left body lines tail →
      decodeTrailers tail reader.options = .ok (trailers, len) →
      WithinLimits reader.limits body lines len) :
    (∀ body trailers rest,
      (∃ consumed, decodeChunked reader.left reader.options =
          .ok { body := body, trailers := trailers, consumed := consumed } ∧
        rest = reader.left.drop consumed) ↔
      ∃ result next, reader.readChunked = .ok (result, next) ∧ result.trailers = trailers ∧
        next.delivered = reader.delivered ++ body ∧ next.left = rest) ↔
    ∀ body lines tail trailers len, Body 0 reader.left body lines tail →
      decodeTrailers tail reader.options = .ok (trailers, len) → Clean lines := by
  simp only [decodeChunked_iff husize, readChunked_iff hfold husize hlimits]
  constructor
  · intro h body lines tail trailers len hbody htrailers
    obtain ⟨lines', tail', len', hbody', hclean, -⟩ :=
      (h body trailers (tail.drop len)).mpr ⟨lines, tail, len, hbody, htrailers, rfl⟩
    obtain ⟨-, rfl, -⟩ := hbody.unique hbody'
    exact hclean
  intro h body trailers rest
  constructor
  · rintro ⟨lines, tail, len, hbody, -, htrailers, hrest⟩
    exact ⟨lines, tail, len, hbody, htrailers, hrest⟩
  · rintro ⟨lines, tail, len, hbody, htrailers, hrest⟩
    exact ⟨lines, tail, len, hbody, h _ _ _ _ _ hbody htrailers, htrailers, hrest⟩

/-- Two chunks and the beginning of another message, read byte by byte. -/
theorem body_reader_agrees_byte_by_byte :
    ∃ result next, readChunked {
        transport := {
          rest := ascii "2;a=b\r\nhi\r\n1\r\n!\r\n0\r\nA: b\r\n\r\nGET"
          cuts := fun _ => 0 }
        inbuf := []
        offset := 0
        limits := { maxHeadBytes := 64, maxBodyBytes := 64 }
        options := {} } = .ok (result, next) ∧
      result.trailers = [{ name := ascii "A", value := ascii "b" }] ∧
      next.delivered = ascii "hi!" ∧ next.left = ascii "GET" :=
  ((@body_reader_agrees {
      transport := {
        rest := ascii "2;a=b\r\nhi\r\n1\r\n!\r\n0\r\nA: b\r\n\r\nGET"
        cuts := fun _ => 0 }
      inbuf := []
      offset := 0
      limits := { maxHeadBytes := 64, maxBodyBytes := 64 }
      options := {} } rfl (by decide) fun _ _ _ _ _ => withinLimits_of_length (by decide)
        (by decide) (by decide)).mpr
    (clean_of_decoded (by decide) (by decide +kernel : decodeChunked
      (ascii "2;a=b\r\nhi\r\n1\r\n!\r\n0\r\nA: b\r\n\r\nGET") {} = .ok {
        body := ascii "hi!"
        trailers := [{ name := ascii "A", value := ascii "b" }]
        consumed := 28 })) _ _ _).mp ⟨28, by decide +kernel, by decide⟩

/-- LF in an extension: the parser rejects the body, and the reader hands its data on. -/
theorem body_reader_agrees_bare_lf :
    decodeChunked (ascii "1;a\nb\r\nx\r\n0\r\n\r\n") {} = .error .invalidChunk ∧
    (readChunked {
        transport := { rest := ascii "1;a\nb\r\nx\r\n0\r\n\r\n", cuts := fun _ => 64 }
        inbuf := []
        offset := 0
        limits := { maxHeadBytes := 64, maxBodyBytes := 64 }
        options := {} }).map (fun read => (read.1, read.2.delivered, read.2.left)) =
      .ok ({ bodyBytes := 1, trailers := [] }, ascii "x", []) := by
  decide +kernel

/-! ### What was written -/

lemma length_hexDigits_le (room value : Nat) : (hexDigits room value).length ≤ room := by
  induction room generalizing value with
  | zero => exact Nat.le_refl 0
  | succ room ih =>
    unfold hexDigits
    split
    · exact Nat.le_add_left 1 room
    · rw [length_append]
      exact Nat.succ_le_succ (ih _)

/-- **Chunks are streamed back as they were written**, however the transport cuts them. -/
theorem written_chunks_streamed {chunks : List Bytes} {trailers : List Header} {out : Bytes}
    {reader : BodyReader} (rest : Bytes) (h : encodeChunked chunks trailers = .ok out)
    (hne : ∀ chunk ∈ chunks, chunk ≠ []) (hleft : reader.left = out ++ rest)
    (husize : reader.left.length ≤ maxUsize) (hfold : reader.options.allowObsFold = false)
    (hroom : trailers.length ≤ reader.options.maxHeaders)
    (hbody : chunks.flatten.length ≤ reader.limits.maxBodyBytes)
    (hhead : (trailers.flatMap writeHeader ++ crlf).length ≤ reader.limits.maxHeadBytes) :
    ∃ result next, reader.readChunked = .ok (result, next) ∧
      result.trailers = trailers.map Header.trimmed ∧
      next.delivered = reader.delivered ++ chunks.flatten ∧ next.left = rest := by
  obtain ⟨hnames, hvalid, hmax, rfl⟩ := encodeChunked_ok h
  rw [length_append] at hmax
  have hsizes : ∀ chunk ∈ chunks, chunk.length ≤ maxUsize := length_le_of_written (by omega)
  have htrailers := decodeTrailers_written hvalid hnames hroom rest
  obtain ⟨written, hwritten, hshort⟩ := body_of_chunks (P := fun line => line.length ≤ 16) hsizes hne
    (fun chunk _ => length_hexDigits_le 16 chunk.length)
    (body_last (trailers.flatMap writeHeader ++ crlf ++ rest)).1 (by decide)
  rw [append_nil, show chunks.flatMap writeChunk ++ ([0x30] ++ crlf ++
    (trailers.flatMap writeHeader ++ crlf ++ rest)) = reader.left by
      rw [hleft]; simp only [append_assoc]] at hwritten
  refine (readChunked_iff hfold husize ?_).mpr
    ⟨written, _, _, hwritten, htrailers, drop_left.symm⟩
  intro body lines tail trailers' len hread htail
  obtain ⟨rfl, rfl, rfl⟩ := hwritten.unique hread
  rw [htrailers, Except.ok.injEq, Prod.mk.injEq] at htail
  obtain ⟨-, rfl⟩ := htail
  refine ⟨fun line hmem => ?_, hbody, .inr hhead⟩
  have := hshort line hmem
  unfold maxChunkExtensionBytes
  omega

/-- Two chunks and a trailer, read byte by byte. -/
theorem written_chunks_streamed_trailer :
    ∃ result next, readChunked {
        transport := {
          rest := ascii "2\r\nhi\r\n1\r\n!\r\n0\r\nA:  b \r\n\r\n" ++ ascii "GET"
          cuts := fun _ => 0 }
        inbuf := []
        offset := 0
        limits := { maxHeadBytes := 64, maxBodyBytes := 64 }
        options := {} } = .ok (result, next) ∧
      result.trailers = [{ name := ascii "A", value := ascii "b" }] ∧
      next.delivered = ascii "hi!" ∧ next.left = ascii "GET" :=
  @written_chunks_streamed [ascii "hi", ascii "!"] [{ name := ascii "A", value := ascii " b " }]
    _ _ (ascii "GET") (by decide +kernel) (by decide) rfl (by decide) rfl (by decide) (by decide)
    (by decide)

end BodyReader

end Netz.Http1
