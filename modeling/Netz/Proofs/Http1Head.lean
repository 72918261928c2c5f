/-
The two request parsers on the same head.

Both see the same lines.  The borrowing parser drops lines that go on with a field; the allocating
one may fold them into the field, and drops the field where one of them cannot be folded.
-/
import Netz.Http1.Head
import Netz.Proofs.Http1Lines

namespace Netz.Http1

open Lib List
open Http (ascii)

/-! ### The field on a line -/

lemma fillHeader_of_continuation {policy : HeaderParsePolicy} {line : Bytes}
    (h : isContinuation line = true) : fillHeader policy line = none := by simp [h, fillHeader]

variable {policy : HeaderParsePolicy} {line bytes : Bytes} {header : Header} {storage : Nat}
  {options : ParseOptions} {headers : List Header} {state : Folding} {lines : List Bytes}
  {final found : Option Nat} {codings : Codings} {groups : List (Header × List Bytes)}

lemma fillHeader_of_error {e : Error} (hne : line.length ≠ 0)
    (hfresh : ¬isContinuation line = true)
    (h : parseHeaderLine line policy.allowSpacesBeforeColon = .error e) :
    fillHeader policy line = none := by
  unfold fillHeader
  rw [if_neg hne, if_neg hfresh, h]
  rfl

lemma fillHeader_of_ok (hne : line.length ≠ 0) (hfresh : ¬isContinuation line = true)
    (h : parseHeaderLine line policy.allowSpacesBeforeColon = .ok header) :
    fillHeader policy line = some header := by
  unfold fillHeader
  rw [if_neg hne, if_neg hfresh, h]
  rfl

/-! ### The lines of a head -/

/-- Lines up to the empty one, and what comes behind it. -/
structure HeadBlock (bytes : Bytes) (lines : List Bytes) (more : Bytes) : Prop where
  eq : bytes = lines.flatMap (· ++ crlf) ++ (crlf ++ more)
  lines : ∀ line ∈ lines, Line line ∧ line ≠ []

lemma HeadBlock.cons {line bytes more : Bytes} {lines : List Bytes} (hline : Line line)
    (hne : line ≠ []) (h : HeadBlock bytes lines more) :
    HeadBlock (line ++ crlf ++ bytes) (line :: lines) more where
  eq := by rw [flatMap_cons, append_assoc (line ++ crlf), ← h.eq]
  lines := forall_mem_cons.mpr ⟨⟨hline, hne⟩, h.lines⟩

lemma headLines_ok {rounds pos headLen : Nat} {rest : Bytes} {before : List Header}
    (h : headLines storage options policy rounds rest pos before = .ok (headers, headLen)) :
    ∃ lines more, HeadBlock rest lines more ∧ headLen + more.length = pos + rest.length ∧
      headers = before ++ lines.filterMap (fillHeader policy) := by
  induction rounds generalizing rest pos before with
  | zero => cases h
  | succ rounds ih =>
    unfold headLines at h
    cases hidx : indexOf crlf rest with
    | none => simp [hidx] at h
    | some lineEnd =>
      rw [hidx] at h
      dsimp only at h
      obtain ⟨hline, hsplit⟩ := line_of_indexOf hidx
      have hroom : lineEnd + 2 ≤ rest.length := indexOf_le hidx
      by_cases hzero : lineEnd = 0
      · rw [if_pos hzero] at h
        cases h
        rw [hzero, take_zero, Nat.zero_add] at hsplit
        refine ⟨[], rest.drop 2, ⟨hsplit, nofun⟩, ?_, (append_nil _).symm⟩
        rw [length_drop]
        omega
      rw [if_neg hzero] at h
      have hlength : (rest.take lineEnd).length = lineEnd := by
        rw [length_take]
        omega
      have hne : rest.take lineEnd ≠ [] := fun hnil => by
        rw [hnil] at hlength
        exact hzero hlength.symm
      have hnonempty : (rest.take lineEnd).length ≠ 0 := by rw [hlength]; exact hzero
      generalize rest.take lineEnd = line at h hline hsplit hlength hne hnonempty
      -- What comes behind the line is walked over, with the field of the line or without.
      have hgo : ∀ taken, headLines storage options policy rounds (rest.drop (lineEnd + 2))
            (pos + lineEnd + 2) (before ++ taken) = .ok (headers, headLen) →
          (fillHeader policy line).toList = taken → ∃ lines more, HeadBlock rest lines more ∧
            headLen + more.length = pos + rest.length ∧
            headers = before ++ lines.filterMap (fillHeader policy) := by
        intro taken hwalk htaken
        obtain ⟨lines, more, hblock, hlen, hhdrs⟩ := ih hwalk
        refine ⟨line :: lines, more, ?_, ?_, ?_⟩
        · rw [hsplit]
          exact hblock.cons hline hne
        · rw [hlen, length_drop]
          omega
        rw [hhdrs, ← htaken]
        cases hfill : fillHeader policy line with
        | none => simp [filterMap_cons_none hfill]
        | some header => simp [filterMap_cons_some hfill]
      by_cases hcont : isContinuation line = true
      · rw [if_pos hcont] at h
        have hfill := @fillHeader_of_continuation policy line hcont
        split at h
        · exact hgo [] (by rw [append_nil]; exact h) (by rw [hfill]; rfl)
        · cases h
      rw [if_neg hcont] at h
      cases hparsed : parseHeaderLine line policy.allowSpacesBeforeColon with
      | error e =>
        rw [hparsed] at h
        have hfill := fillHeader_of_error hnonempty hcont hparsed
        dsimp only at h
        split at h
        · exact hgo [] (by rw [append_nil]; exact h) (by rw [hfill]; rfl)
        · cases h
      | ok header =>
        rw [hparsed] at h
        have hfill := fillHeader_of_ok hnonempty hcont hparsed
        dsimp only at h
        split at h
        · cases h
        · exact hgo [header] h (by rw [hfill]; rfl)

/-- The lines of the fields, as `parseRequest` finds them. -/
def fieldLines (bytes : Bytes) : List Bytes :=
  match indexOf (crlf ++ crlf) bytes with
  | none => []
  | some headEnd => (splitLines (bytes.take headEnd)).tail

/-- **Both parsers find the same end of the head and the same lines in it.** -/
theorem parseHeadLines_ok {parsed : BorrowedHead}
    (h : parseHeadLines bytes storage options policy = .ok parsed) :
    ∃ headEnd, indexOf (crlf ++ crlf) bytes = some headEnd ∧ parsed.headLen = headEnd + 4 ∧
      splitLines (bytes.take headEnd) = parsed.startLine :: fieldLines bytes ∧
      (∀ line ∈ fieldLines bytes, line ≠ []) ∧
      parsed.headers = (fieldLines bytes).filterMap (fillHeader policy) := by
  unfold parseHeadLines at h
  cases hidx : indexOf crlf bytes with
  | none =>
    rw [hidx] at h
    cases h
  | some firstLineEnd =>
    rw [hidx] at h
    obtain ⟨⟨headers, headLen⟩, hwalk, h⟩ := bind_eq_ok h
    cases h
    obtain ⟨hline, hsplit⟩ := line_of_indexOf hidx
    obtain ⟨lines, more, ⟨hrest, hlines⟩, hlen, hhdrs⟩ := headLines_ok hwalk
    obtain ⟨block, hblock, hblank, hlinesBack⟩ := blank_of_lines hline hlines
    have hbytes : bytes = block ++ crlf ++ (crlf ++ more) := by
      rw [← hblock, flatMap_cons, append_assoc, ← hrest]
      exact hsplit
    have hend : indexOf (crlf ++ crlf) bytes = some block.length := by
      rw [hbytes]
      exact hblank more
    have htake : bytes.take block.length = block := by
      rw [hbytes, append_assoc, take_left]
    have hfields : fieldLines bytes = lines := by simp [hend, htake, hlinesBack, fieldLines]
    have hlength := congrArg length hbytes
    have hroom : firstLineEnd + 2 ≤ bytes.length := indexOf_le hidx
    have hcrlf : crlf.length = 2 := rfl
    simp only [length_append] at hlength
    rw [length_drop] at hlen
    refine ⟨block.length, hend, ?_, ?_, ?_, ?_⟩
    · dsimp only
      omega
    · rw [htake, hfields, hlinesBack]
    · rw [hfields]
      exact fun line hmem => (hlines line hmem).2
    · rw [hfields]
      exact hhdrs

/-! ### Folding -/

/-- The fields on the lines, each with the lines that go on with it. -/
def fieldGroups (policy : HeaderParsePolicy) : List Bytes → List (Header × List Bytes)
  | [] => []
  | line :: lines =>
    match fillHeader policy line with
    | none => fieldGroups policy lines
    | some header => (header, lines.takeWhile isContinuation) :: fieldGroups policy lines

lemma map_fst_fieldGroups (policy : HeaderParsePolicy) (lines : List Bytes) :
    (fieldGroups policy lines).map Prod.fst = lines.filterMap (fillHeader policy) := by
  induction lines with
  | nil => rfl
  | cons line lines ih =>
    unfold fieldGroups
    cases hfill : fillHeader policy line with
    | none =>
      rw [filterMap_cons_none hfill]
      exact ih
    | some header =>
      rw [filterMap_cons_some hfill, ← ih]
      rfl

/-- A line that can go on with a field. -/
def foldable (line : Bytes) : Bool := (trimOws line).all validHeaderValueByte

lemma validateHeaderValue_trimOws (line : Bytes) : validateHeaderValue (trimOws line) =
    if foldable line then .ok () else .error .malformedHeader := rfl

/-- The field goes on with a line. -/
def foldInto (header : Header) (line : Bytes) : Header :=
  { header with
    value := if (trimOws line).length ≠ 0 then header.value ++ [0x20] ++ trimOws line
      else header.value }

lemma appendFoldedHeaderValue_concat (front : List Header) (last : Header) (line : Bytes) :
    appendFoldedHeaderValue (front ++ [last]) (trimOws line) = front ++ [foldInto last line] := by
  unfold appendFoldedHeaderValue
  rw [getLast?_concat, dropLast_concat]
  rfl

/-- The field of a group, unless one of its lines spoils it. -/
def folded (group : Header × List Bytes) : Option Header :=
  if group.2.all foldable then some (group.2.foldl foldInto group.1) else none

lemma folded_cons (header : Header) (line : Bytes) (lines : List Bytes) :
    folded (header, line :: lines) =
      if foldable line then folded (foldInto header line, lines) else none := by
  unfold folded
  rw [all_cons, foldl_cons]
  cases foldable line <;> rfl

/-- The fields before some lines that go on with the last of them. -/
def pending (state : Folding) (lines : List Bytes) : List Header :=
  if state.skipContinuations then state.headers
  else
    match state.headers.getLast? with
    | none => []
    | some last => state.headers.dropLast ++ (folded (last, lines)).toList

lemma pending_nil (state : Folding) : pending state [] = state.headers := by
  unfold pending
  split
  · rfl
  rcases eq_nil_or_concat state.headers with hnil | ⟨front, last, hconcat⟩
  · rw [hnil]
    rfl
  · rw [hconcat, concat_eq_append, getLast?_concat, dropLast_concat]
    rfl

lemma pending_concat (front : List Header) (last : Header) (lines : List Bytes) :
    pending { headers := front ++ [last], skipContinuations := false } lines =
      front ++ (folded (last, lines)).toList := by simp [pending]

lemma foldHeaderLine_ok {next : Folding} (hne : line ≠ [])
    (h : foldHeaderLine options policy state line = .ok next) :
    pending next (lines.takeWhile isContinuation) ++ (fieldGroups policy lines).filterMap folded =
      pending state ((line :: lines).takeWhile isContinuation) ++
        (fieldGroups policy (line :: lines)).filterMap folded := by
  have hnonempty : line.length ≠ 0 := fun hzero => hne (eq_nil_of_length_eq_zero hzero)
  unfold foldHeaderLine at h
  rw [if_neg hnonempty] at h
  by_cases hcont : isContinuation line = true
  · rw [if_pos hcont] at h
    have hfill := @fillHeader_of_continuation policy line hcont
    rw [takeWhile_cons_of_pos hcont]
    conv => rhs; unfold fieldGroups
    rw [hfill]
    congr 1
    obtain ⟨headers, skip⟩ := state
    cases skip with
    | true =>
      cases h
      rfl
    | false =>
      rw [if_neg Bool.false_ne_true] at h
      rcases eq_nil_or_concat headers with rfl | ⟨front, last, rfl⟩
      · -- There is no field to go on with.
        rw [if_pos length_nil] at h
        split at h
        · cases h
          rfl
        · cases h
      rw [concat_eq_append] at h ⊢
      have hsome : (front ++ [last]).length ≠ 0 := by simp
      rw [if_neg hsome, validateHeaderValue_trimOws] at h
      rw [pending_concat, folded_cons]
      by_cases hfold : foldable line = true
      · rw [if_pos hfold] at h ⊢
        rw [appendFoldedHeaderValue_concat] at h
        cases h
        exact pending_concat _ _ _
      rw [if_neg hfold] at h ⊢
      dsimp only at h
      split at h
      · cases h
        simp [pending]
      · cases h
  rw [if_neg hcont] at h
  rw [takeWhile_cons_of_neg hcont, pending_nil]
  cases hparsed : parseHeaderLine line policy.allowSpacesBeforeColon with
  | error e =>
    rw [hparsed] at h
    have hfill := fillHeader_of_error hnonempty hcont hparsed
    dsimp only at h
    split at h
    · cases h
      conv => rhs; unfold fieldGroups
      rw [hfill]
      rfl
    · cases h
  | ok header =>
    rw [hparsed] at h
    have hfill := fillHeader_of_ok hnonempty hcont hparsed
    dsimp only at h
    split at h
    · cases h
    cases h
    conv => rhs; unfold fieldGroups
    rw [hfill, pending_concat, append_assoc]
    cases hfolded : folded (header, lines.takeWhile isContinuation) with
    | none =>
      rw [filterMap_cons_none hfolded]
      rfl
    | some whole =>
      rw [filterMap_cons_some hfolded]
      rfl

/-- **The fields of the folding parser.** -/
theorem foldHeaderLines_ok {final : Folding} (hne : ∀ line ∈ lines, line ≠ [])
    (h : lines.foldlM (foldHeaderLine options policy) state = .ok final) :
    final.headers = pending state (lines.takeWhile isContinuation) ++
      (fieldGroups policy lines).filterMap folded := by
  induction lines generalizing state with
  | nil =>
    cases h
    rw [takeWhile_nil, pending_nil]
    exact (append_nil _).symm
  | cons line lines ih =>
    obtain ⟨hline, hothers⟩ := forall_mem_cons.mp hne
    obtain ⟨next, hnext, h⟩ := bind_eq_ok h
    rw [← foldHeaderLine_ok hline hnext]
    exact ih hothers h

lemma countHeaderLines_ok {count total : Nat}
    (h : countHeaderLines options policy lines count = .ok total) :
    total = count + (lines.filterMap (fillHeader policy)).length := by
  induction lines generalizing count with
  | nil =>
    cases h
    rfl
  | cons line lines ih =>
    unfold countHeaderLines at h
    by_cases hempty : line.length = 0
    · rw [if_pos hempty] at h
      have hfill : fillHeader policy line = none := if_pos hempty
      rw [filterMap_cons_none hfill]
      exact ih h
    rw [if_neg hempty] at h
    by_cases hcont : isContinuation line = true
    · rw [if_pos hcont] at h
      have hfill := @fillHeader_of_continuation policy line hcont
      rw [filterMap_cons_none hfill]
      split at h
      · exact ih h
      · cases h
    rw [if_neg hcont] at h
    cases hparsed : parseHeaderLine line policy.allowSpacesBeforeColon with
    | error e =>
      rw [hparsed] at h
      have hfill := fillHeader_of_error hempty hcont hparsed
      rw [filterMap_cons_none hfill]
      dsimp only at h
      split at h
      · exact ih h
      · cases h
    | ok header =>
      rw [hparsed] at h
      have hfill := fillHeader_of_ok hempty hcont hparsed
      rw [filterMap_cons_some hfill, length_cons]
      dsimp only at h
      split at h
      · cases h
      · rw [ih h]
        omega

/-- **The fields of the allocating parser**, folded or not. -/
theorem parseHeaderLines_ok (hne : ∀ line ∈ lines, line ≠ [])
    (h : parseHeaderLines lines options policy = .ok headers) :
    headers = if options.allowObsFold then (fieldGroups policy lines).filterMap folded
      else (fieldGroups policy lines).map Prod.fst := by
  unfold parseHeaderLines at h
  cases hfold : options.allowObsFold with
  | false =>
    rw [hfold] at h
    unfold parseHeaderLinesNoFold at h
    obtain ⟨count, hcount, h⟩ := bind_eq_ok h
    have htotal := countHeaderLines_ok hcount
    rw [map_fst_fieldGroups, if_neg Bool.false_ne_true]
    cases h
    by_cases hzero : count = 0
    · rw [if_pos hzero]
      exact (eq_nil_of_length_eq_zero (by omega)).symm
    · rw [if_neg hzero]
  | true =>
    rw [hfold] at h
    obtain ⟨final, hfinal, h⟩ := bind_eq_ok h
    cases h
    rw [foldHeaderLines_ok hne hfinal]
    rfl

/-! ### Numbers -/

lemma splitOn_eq (value : Bytes) (byte : UInt8) :
    ∃ parts, value.splitOn byte = value.takeWhile (· != byte) :: parts := by
  unfold splitOn
  induction value with
  | nil => exact ⟨[], rfl⟩
  | cons first rest ih =>
    obtain ⟨parts, hparts⟩ := ih
    rw [splitOnP_cons_eq_if_modifyHead, hparts]
    by_cases hhere : first = byte
    · simp [hhere]
    rw [if_neg (fun h => hhere (beq_iff_eq.mp h)),
      takeWhile_cons, if_pos (bne_iff_ne.mpr hhere)]
    exact ⟨parts, rfl⟩

/-- The first number of a Content-Length value. -/
structure Declares (value : Bytes) (length : Nat) : Prop where
  nonempty : trimOws (value.takeWhile (· != 0x2c)) ≠ []
  digits : ∀ byte ∈ trimOws (value.takeWhile (· != 0x2c)), isDigit byte = true
  number : ofDigits 10 (trimOws (value.takeWhile (· != 0x2c))) = length

/-- What is behind a space is no part of a number. -/
theorem trimOws_append_space {front back : Bytes} (hne : trimOws front ≠ [])
    (hdigs : ∀ byte ∈ trimOws (front ++ 0x20 :: back), isDigit byte = true) :
    trimOws (front ++ 0x20 :: back) = trimOws front := by
  have hstart : front.dropWhile isOws ≠ [] := by
    intro hnil
    apply hne
    simp [hnil, trimOws]
  have hdrop : (front ++ 0x20 :: back).dropWhile isOws = front.dropWhile isOws ++ 0x20 :: back := by
    simp [List.dropWhile_append, hstart]
  unfold trimOws at hdigs ⊢
  rw [hdrop] at hdigs ⊢
  generalize front.dropWhile isOws = start at hdigs ⊢
  unfold List.rdropWhile at hdigs ⊢
  have hreverse : (start ++ 0x20 :: back).reverse = (back.reverse ++ [0x20]) ++ start.reverse := by
    rw [List.reverse_append, List.reverse_cons]
  rw [hreverse] at hdigs ⊢
  by_cases hspaces : back.reverse.dropWhile isOws = []
  · rw [List.dropWhile_append_of_pos]
    intro byte hbyte
    rcases List.mem_append.mp hbyte with hin | hlast
    · exact List.dropWhile_eq_nil_iff.mp hspaces byte hin
    · rw [List.mem_singleton.mp hlast]
      rfl
  -- The space would be among the digits.
  rw [List.append_assoc, List.dropWhile_append, if_neg (by rw [List.isEmpty_iff]; exact hspaces)]
    at hdigs
  have hspace := hdigs 0x20 (List.mem_reverse.mpr (List.mem_append_right _
    (List.mem_append_left _ (List.mem_singleton.mpr rfl))))
  exact absurd hspace (by decide)

lemma Declares.unique {value back : Bytes} {length length' : Nat} (h : Declares value length)
    (h' : Declares (value ++ 0x20 :: back) length') : length = length' := by
  by_cases hall : (value.takeWhile (· != 0x2c)).length = value.length
  · obtain ⟨_, hdigs, rfl⟩ := h'
    obtain ⟨hne, _, rfl⟩ := h
    have hwhole : value.takeWhile (· != 0x2c) = value :=
      (List.takeWhile_prefix _).eq_of_length hall
    have htake : (value ++ 0x20 :: back).takeWhile (· != 0x2c) =
        value ++ 0x20 :: back.takeWhile (· != 0x2c) := by
      rw [takeWhile_append, if_pos hall, takeWhile_cons_of_pos (by decide)]
    rw [htake] at hdigs ⊢
    rw [hwhole] at hne ⊢
    rw [trimOws_append_space hne hdigs]
  · simp [takeWhile_append, hall, ← h.number, ← h'.number]

lemma addContentLength_ok {next : Option Nat} {part : Bytes}
    (h : addContentLength found part = .ok next) :
    (∀ length, found = some length → next = some length) ∧ trimOws part ≠ [] ∧
      (∀ byte ∈ trimOws part, isDigit byte = true) ∧ next = some (ofDigits 10 (trimOws part)) := by
  unfold addContentLength at h
  obtain ⟨hempty, h⟩ := of_guard h nofun
  have hne : trimOws part ≠ [] := fun hnil => hempty (by rw [hnil]; rfl)
  cases hdigs : (trimOws part).all isDigit with
  | false =>
    rw [hdigs] at h
    cases h
  | true =>
    rw [hdigs, if_neg (by decide)] at h
    split at h
    · cases h
    cases found with
    | none =>
      cases h
      exact ⟨nofun, hne, all_eq_true.mp hdigs, rfl⟩
    | some existing =>
      dsimp only at h
      split at h
      · cases h
      rename_i hsame
      cases h
      refine ⟨fun _ hlen => hlen, hne, all_eq_true.mp hdigs, ?_⟩
      rw [not_not.mp hsame]

lemma addContentLengths_ok {parts : List Bytes}
    (h : parts.foldlM addContentLength found = .ok final) :
    ∀ length, found = some length → final = some length := by
  induction parts generalizing found with
  | nil =>
    cases h
    exact fun _ hlen => hlen
  | cons part parts ih =>
    obtain ⟨next, hnext, h⟩ := bind_eq_ok h
    exact fun length hlen => ih h length ((addContentLength_ok hnext).1 length hlen)

/-- A value has one length, and declares it first. -/
theorem parseContentLengthFieldValue_ok {value : Bytes} {previous : Option Nat}
    (h : parseContentLengthFieldValue value previous = .ok final) :
    (∀ length, previous = some length → final = some length) ∧
      ∃ length, final = some length ∧ Declares value length := by
  refine ⟨addContentLengths_ok h, ?_⟩
  obtain ⟨parts, hparts⟩ := splitOn_eq value 0x2c
  unfold parseContentLengthFieldValue at h
  rw [hparts] at h
  obtain ⟨next, hnext, h⟩ := bind_eq_ok h
  obtain ⟨-, hne, hdigs, hlen⟩ := addContentLength_ok hnext
  exact ⟨_, addContentLengths_ok h _ hlen, hne, hdigs, rfl⟩

/-- **Every Content-Length field declares the length.** -/
theorem contentLengthFields_ok (h : headers.foldlM addContentLengthField found = .ok final) :
    (∀ length, found = some length → final = some length) ∧
      (∀ header ∈ headers, header.eqlName "content-length" = true →
        ∃ length, final = some length ∧ Declares header.value length) ∧
      (headers.any (·.eqlName "content-length") = false → final = found) := by
  induction headers generalizing found with
  | nil =>
    cases h
    exact ⟨fun _ hlen => hlen, nofun, fun _ => rfl⟩
  | cons header headers ih =>
    obtain ⟨next, hnext, h⟩ := bind_eq_ok h
    obtain ⟨hkeep, hfields, hnone⟩ := ih h
    unfold addContentLengthField at hnext
    rw [any_cons]
    cases hname : header.eqlName "content-length" with
    | false =>
      rw [hname] at hnext
      cases hnext
      refine ⟨hkeep, forall_mem_cons.mpr ⟨fun h => ?_, hfields⟩, hnone⟩
      simp [hname] at h
    | true =>
      rw [hname] at hnext
      obtain ⟨hpre, length, hlen, hdeclares⟩ := parseContentLengthFieldValue_ok hnext
      refine ⟨fun other hother => hkeep other (hpre other hother),
        forall_mem_cons.mpr ⟨fun _ => ⟨length, hkeep length hlen, hdeclares⟩, hfields⟩, nofun⟩

/-! ### Framing -/

lemma addCodings_ok {tokens : List Bytes} {final : Codings}
    (h : tokens.foldlM addCoding codings = .ok final) :
    final.sawTransferEncoding = codings.sawTransferEncoding := by
  induction tokens generalizing codings with
  | nil =>
    cases h
    rfl
  | cons token tokens ih =>
    obtain ⟨next, hnext, h⟩ := bind_eq_ok h
    rw [ih h]
    unfold addCoding at hnext
    dsimp only at hnext
    split at hnext
    · cases hnext
    split at hnext
    · cases hnext
    · cases hnext
      rfl

lemma addCodingFields_ok {final : Codings}
    (h : headers.foldlM addCodingField codings = .ok final) :
    final.sawTransferEncoding =
      (codings.sawTransferEncoding || headers.any (·.eqlName "transfer-encoding")) := by
  induction headers generalizing codings with
  | nil =>
    cases h
    exact (Bool.or_false _).symm
  | cons header headers ih =>
    obtain ⟨next, hnext, h⟩ := bind_eq_ok h
    rw [ih h, any_cons]
    unfold addCodingField at hnext
    cases hname : header.eqlName "transfer-encoding" with
    | false =>
      rw [hname] at hnext
      cases hnext
      rfl
    | true =>
      rw [hname] at hnext
      rw [addCodings_ok hnext, Bool.true_or, Bool.or_true]

/-- **The fields that a head has decide its framing.** -/
theorem bodyFraming_ok {framing : BodyFraming} (h : bodyFraming headers = .ok framing) :
    framing = if headers.any (·.eqlName "transfer-encoding") then .chunked
      else if headers.any (·.eqlName "content-length") then .contentLength else .none := by
  unfold bodyFraming at h
  obtain ⟨coded, hcoded, h⟩ := bind_eq_ok h
  unfold transferEncodingFraming at hcoded
  obtain ⟨codings, hcodings, hcoded⟩ := bind_eq_ok hcoded
  have hsaw := addCodingFields_ok hcodings
  rw [hsaw] at hcoded
  cases hany : headers.any (·.eqlName "transfer-encoding") with
  | true =>
    rw [hany, if_neg (by decide)] at hcoded
    split at hcoded
    · cases hcoded
    cases hcoded
    cases h
    rfl
  | false =>
    rw [hany] at hcoded
    cases hcoded
    obtain ⟨length, hlen, h⟩ := bind_eq_ok h
    obtain ⟨-, hfields, hnone⟩ := contentLengthFields_ok hlen
    cases hsome : headers.any (·.eqlName "content-length") with
    | true =>
      obtain ⟨header, hmem, hname⟩ := any_eq_true.mp hsome
      obtain ⟨number, rfl, -⟩ := hfields header hmem hname
      cases h
      rfl
    | false =>
      rw [hnone hsome] at h
      cases h
      rfl

/-! ### Agreement -/

/-- A folded field has the name of the field, and its value goes on behind a space. -/
theorem foldl_foldInto (header : Header) (lines : List Bytes) :
    (lines.foldl foldInto header).name = header.name ∧
      ((lines.foldl foldInto header).value = header.value ∨
        ∃ back, (lines.foldl foldInto header).value = header.value ++ 0x20 :: back) := by
  induction lines generalizing header with
  | nil => exact ⟨rfl, .inl rfl⟩
  | cons line lines ih =>
    obtain ⟨hname, hvalue⟩ := ih (foldInto header line)
    rw [foldl_cons]
    refine ⟨hname, ?_⟩
    have hone : (foldInto header line).value = header.value ∨
        (foldInto header line).value = header.value ++ 0x20 :: trimOws line := by
      unfold foldInto
      split
      · exact .inr (by rw [append_assoc]; rfl)
      · exact .inl rfl
    rcases hone with hsame | hmore
    · rw [hsame] at hvalue
      exact hvalue
    rw [hmore] at hvalue
    rcases hvalue with hvalue | ⟨back, hvalue⟩
    · exact .inr ⟨_, hvalue⟩
    · exact .inr ⟨trimOws line ++ 0x20 :: back, by rw [hvalue, append_assoc]; rfl⟩

def hasField (groups : List (Header × List Bytes)) (name : String) : Bool :=
  groups.any fun group => group.1.eqlName name

/-- A field of this name is not spoilt by the lines that go on with it. -/
def keepsField (groups : List (Header × List Bytes)) (name : String) : Bool :=
  groups.any fun group => group.1.eqlName name && group.2.all foldable

lemma any_map_fst (groups : List (Header × List Bytes)) (name : String) :
    (groups.map Prod.fst).any (·.eqlName name) = hasField groups name := any_map

lemma folded_eq_some_iff {group : Header × List Bytes} :
    folded group = some header ↔
      group.2.all foldable = true ∧ group.2.foldl foldInto group.1 = header := by simp [folded]

lemma any_filterMap_folded (groups : List (Header × List Bytes)) (name : String) :
    (groups.filterMap folded).any (·.eqlName name) = keepsField groups name := by
  rw [Bool.eq_iff_iff]
  unfold keepsField
  rw [any_eq_true, any_eq_true]
  constructor
  · rintro ⟨header, hmem, hname⟩
    obtain ⟨group, hgroup, hfolded⟩ := mem_filterMap.mp hmem
    obtain ⟨hall, rfl⟩ := folded_eq_some_iff.mp hfolded
    unfold Header.eqlName at hname
    rw [(foldl_foldInto group.1 group.2).1] at hname
    exact ⟨group, hgroup, Bool.and_eq_true_iff.mpr ⟨hname, hall⟩⟩
  rintro ⟨group, hgroup, hkept⟩
  obtain ⟨hname, hall⟩ := Bool.and_eq_true_iff.mp hkept
  refine ⟨group.2.foldl foldInto group.1,
    mem_filterMap.mpr ⟨group, hgroup, folded_eq_some_iff.mpr ⟨hall, rfl⟩⟩, ?_⟩
  unfold Header.eqlName
  rw [(foldl_foldInto group.1 group.2).1]
  exact hname

lemma keepsField_imp {name : String} (h : keepsField groups name = true) :
    hasField groups name = true := by
  obtain ⟨group, hgroup, hkept⟩ := any_eq_true.mp h
  exact any_eq_true.mpr ⟨group, hgroup, (Bool.and_eq_true_iff.mp hkept).1⟩

lemma parseRequestHead_ok {head : RequestHead}
    (h : parseRequestHead bytes storage options = .ok head) :
    ∃ headEnd startLine, indexOf (crlf ++ crlf) bytes = some headEnd ∧
      head.headLen = headEnd + 4 ∧
      splitLines (bytes.take headEnd) = startLine :: fieldLines bytes ∧
      (∀ line ∈ fieldLines bytes, line ≠ []) ∧
      head.headers = (fieldGroups (requestPolicy options) (fieldLines bytes)).map Prod.fst ∧
      bodyFraming head.headers = .ok head.bodyFraming ∧
      declaredLength head.bodyFraming head.headers = .ok head.contentLength := by
  unfold parseRequestHead at h
  obtain ⟨parsed, hparsed, h⟩ := bind_eq_ok h
  obtain ⟨line, -, h⟩ := bind_eq_ok h
  obtain ⟨method, -, h⟩ := bind_eq_ok h
  obtain ⟨_, -, h⟩ := bind_eq_ok h
  obtain ⟨version, -, h⟩ := bind_eq_ok h
  obtain ⟨_, -, h⟩ := bind_eq_ok h
  obtain ⟨_, -, h⟩ := bind_eq_ok h
  obtain ⟨framing, hframing, h⟩ := bind_eq_ok h
  obtain ⟨length, hlength, h⟩ := bind_eq_ok h
  cases h
  obtain ⟨headEnd, hidx, hlen, hlines, hne, hhdrs⟩ := parseHeadLines_ok hparsed
  rw [← map_fst_fieldGroups] at hhdrs
  exact ⟨headEnd, _, hidx, hlen, hlines, hne, hhdrs, hframing, hlength⟩

lemma parseBody_ok {bodyStart : Nat} {body : ParsedBody}
    (h : parseBody bytes bodyStart headers options = .ok body) :
    bodyFraming headers = .ok body.framing ∧
      (body.framing = .none → body.consumed = bodyStart) ∧
      (body.framing = .contentLength → ∃ length, contentLength headers = .ok (some length) ∧
        body.body.length = length ∧ body.consumed = bodyStart + length) ∧
      (body.framing = .chunked → ∃ decoded, decodeChunked (bytes.drop bodyStart) options =
        .ok decoded ∧ body.consumed = bodyStart + decoded.consumed) := by
  unfold parseBody at h
  obtain ⟨framing, hframing, h⟩ := bind_eq_ok h
  cases framing with
  | none =>
    cases h
    exact ⟨hframing, fun _ => rfl, nofun, nofun⟩
  | contentLength =>
    unfold fixedBody at h
    obtain ⟨length, hlen, h⟩ := bind_eq_ok h
    cases length with
    | none => cases h
    | some len =>
      obtain ⟨bodyEnd, hend, h⟩ := bind_eq_ok h
      have htotal : bodyEnd = bodyStart + len := by
        unfold checkedAdd at hend
        split at hend
        · exact (Except.ok.inj hend).symm
        · cases hend
      obtain ⟨hshort, h⟩ := of_guard h nofun
      cases h
      refine ⟨hframing, nofun, fun _ => ⟨len, hlen, ?_, htotal⟩, nofun⟩
      rw [length_take, length_drop]
      omega
  | chunked =>
    obtain ⟨decoded, hdec, h⟩ := bind_eq_ok h
    cases h
    exact ⟨hframing, nofun, nofun, fun _ => ⟨decoded, hdec, rfl⟩⟩
  | closeDelimited => cases h

lemma parseRequest_ok {startLine : Bytes} {request : Request} {headEnd : Nat}
    (hidx : indexOf (crlf ++ crlf) bytes = some headEnd)
    (hlines : splitLines (bytes.take headEnd) = startLine :: lines)
    (h : parseRequest bytes options = .ok request) :
    ∃ headers body, parseHeaderLines lines options (requestPolicy options) = .ok headers ∧
      parseBody bytes (headEnd + 4) headers options = .ok body ∧
      request.bodyFraming = body.framing ∧ request.body = body.body ∧
      request.consumed = body.consumed := by
  unfold parseRequest at h
  rw [hidx] at h
  dsimp only at h
  rw [hlines] at h
  obtain ⟨parts, -, h⟩ := bind_eq_ok h
  obtain ⟨method, -, h⟩ := bind_eq_ok h
  obtain ⟨_, -, h⟩ := bind_eq_ok h
  obtain ⟨version, -, h⟩ := bind_eq_ok h
  obtain ⟨headers, hhdrs, h⟩ := bind_eq_ok h
  obtain ⟨_, -, h⟩ := bind_eq_ok h
  obtain ⟨body, hbody, h⟩ := bind_eq_ok h
  cases h
  exact ⟨headers, body, hhdrs, hbody, rfl, rfl, rfl⟩

/-- Both parsers place the body and the next request at the same bytes. -/
structure SameBoundaries (bytes : Bytes) (options : ParseOptions) (head : RequestHead)
    (request : Request) : Prop where
  headLen : ∃ headEnd, indexOf (crlf ++ crlf) bytes = some headEnd ∧ head.headLen = headEnd + 4
  framing : request.bodyFraming = head.bodyFraming
  none : head.bodyFraming = .none → request.consumed = head.headLen
  contentLength : head.bodyFraming = .contentLength →
    ∃ length, head.contentLength = some length ∧ request.body.length = length ∧
      request.consumed = head.headLen + length
  chunked : head.bodyFraming = .chunked →
    ∃ decoded, decodeChunked (bytes.drop head.headLen) options = .ok decoded ∧
      request.consumed = head.headLen + decoded.consumed

/-- The field that decides the framing is not spoilt by lines that go on with it. -/
def FramingKept (options : ParseOptions) (bytes : Bytes) : Prop :=
  options.allowObsFold = true →
    let groups := fieldGroups (requestPolicy options) (fieldLines bytes)
    if hasField groups "transfer-encoding" then keepsField groups "transfer-encoding" = true
    else hasField groups "content-length" = true → keepsField groups "content-length" = true

lemma sameFraming_iff {coded coded' sized sized' : Bool} (hcoded : coded' = true → coded = true)
    (hsized : sized' = true → sized = true) :
    ((if coded' then BodyFraming.chunked else if sized' then .contentLength else .none) =
      if coded then BodyFraming.chunked else if sized then .contentLength else .none) ↔
    if coded then coded' = true else sized = true → sized' = true := by
  revert coded coded' sized sized'
  decide

/-- A field that is kept declares the same length, folded or not. -/
theorem sameLength {length : Nat} {fold : Bool}
    (hhdrs : headers = if fold then groups.filterMap folded else groups.map Prod.fst)
    (hfound : contentLength (groups.map Prod.fst) = .ok found)
    (hlen : contentLength headers = .ok (some length)) : found = some length := by
  obtain ⟨-, hfields, -⟩ := contentLengthFields_ok hfound
  obtain ⟨-, hkept, hnone⟩ := contentLengthFields_ok hlen
  have hany : headers.any (·.eqlName "content-length") = true := by
    by_contra hno
    cases hnone (Bool.not_eq_true _ ▸ hno)
  obtain ⟨header, hmem, hname⟩ := any_eq_true.mp hany
  obtain ⟨_, hsame, hdeclares⟩ := hkept header hmem hname
  cases hsame
  cases fold with
  | false =>
    rw [hhdrs] at hmem
    obtain ⟨number, rfl, hnum⟩ := hfields header hmem hname
    rw [← hnum.number, hdeclares.number]
  | true =>
    rw [hhdrs] at hmem
    obtain ⟨group, hgroup, hfolded⟩ := mem_filterMap.mp hmem
    obtain ⟨-, rfl⟩ := folded_eq_some_iff.mp hfolded
    obtain ⟨hsameName, hvalue⟩ := foldl_foldInto group.1 group.2
    unfold Header.eqlName at hname
    rw [hsameName] at hname
    obtain ⟨number, rfl, hnum⟩ :=
      hfields group.1 (mem_map.mpr ⟨group, hgroup, rfl⟩) hname
    rcases hvalue with hvalue | ⟨back, hvalue⟩
    · rw [hvalue] at hdeclares
      rw [← hnum.number, hdeclares.number]
    · rw [hvalue] at hdeclares
      rw [hnum.unique hdeclares]

/-- **The parsers agree on the boundaries of a request that both accept exactly where the field
that decides its framing is not spoilt.**  Where one of its continuations cannot be folded, the
allocating parser drops the field and the borrowing one only the continuation. -/
theorem request_parsers_agree {bytes : Bytes} {storage : Nat} {options : ParseOptions}
    {head : RequestHead} {request : Request}
    (hhead : parseRequestHead bytes storage options = .ok head)
    (hrequest : parseRequest bytes options = .ok request) :
    SameBoundaries bytes options head request ↔ FramingKept options bytes := by
  obtain ⟨headEnd, startLine, hindex, hlen, hlines, hne, hborrowed, hframing, hdeclared⟩ :=
    parseRequestHead_ok hhead
  obtain ⟨headers, body, hparsed, hbody, hbodyFraming, hbytes, hconsumed⟩ :=
    parseRequest_ok hindex hlines hrequest
  obtain ⟨hframing', hnone, hsized, hchunked⟩ := parseBody_ok hbody
  have hheaders := parseHeaderLines_ok hne hparsed
  have hfirst := bodyFraming_ok hframing
  have hsecond := bodyFraming_ok hframing'
  rw [hborrowed] at hdeclared
  rw [hborrowed, any_map_fst, any_map_fst] at hfirst
  have hkey : request.bodyFraming = head.bodyFraming ↔ FramingKept options bytes := by
    rw [hbodyFraming, hsecond, hfirst, hheaders]
    unfold FramingKept
    cases options.allowObsFold with
    | false =>
      rw [if_neg Bool.false_ne_true, any_map_fst, any_map_fst]
      exact iff_of_true rfl nofun
    | true =>
      rw [if_pos rfl, any_filterMap_folded, any_filterMap_folded]
      exact (sameFraming_iff keepsField_imp keepsField_imp).trans ⟨fun h _ => h, fun h => h rfl⟩
  rw [← hkey]
  constructor
  · exact fun h => h.framing
  intro hsame
  rw [hbodyFraming] at hsame
  rw [hsame] at hnone hsized hchunked
  refine ⟨⟨headEnd, hindex, hlen⟩, hbodyFraming.trans hsame, ?_, ?_, ?_⟩
  · intro hframe
    rw [hconsumed, hnone hframe, hlen]
  · intro hframe
    obtain ⟨length, hlength, hbodyLength, hend⟩ := hsized hframe
    unfold declaredLength at hdeclared
    rw [if_pos hframe] at hdeclared
    refine ⟨length, sameLength hheaders hdeclared hlength, ?_, ?_⟩
    · rw [hbytes, hbodyLength]
    · rw [hconsumed, hend, hlen]
  intro hframe
  obtain ⟨decoded, hdecoded, hend⟩ := hchunked hframe
  exact ⟨decoded, by rw [hlen]; exact hdecoded, by rw [hconsumed, hend, hlen]⟩

/-- A length that is folded: both parsers see five bytes of body. -/
theorem request_parsers_agree_folded_length :
    SameBoundaries
      (ascii "POST / HTTP/1.1\r\nHost: a\r\nContent-Length: 5\r\n , 5\r\n\r\nhelloGET")
      { allowObsFold := true, ignoreInvalidHeadersInRequests := true }
      { method := .POST
        target := ascii "/"
        version := .http11
        headers := [{ name := ascii "Host", value := ascii "a" },
          { name := ascii "Content-Length", value := ascii "5" }]
        bodyFraming := .contentLength
        contentLength := some 5
        headLen := 53 }
      { method := .POST
        target := ascii "/"
        version := .http11
        headers := [{ name := ascii "Host", value := ascii "a" },
          { name := ascii "Content-Length", value := ascii "5 , 5" }]
        body := ascii "hello"
        bodyFraming := .contentLength
        trailers := []
        consumed := 58 } :=
  (@request_parsers_agree _ 8 _ _ _ (by decide +kernel) (by decide +kernel)).mpr
    fun _ => by decide +kernel

/-- A length with a line behind it that cannot be folded: one parser sees five bytes of body, and
the other takes them for the next request. -/
theorem request_parsers_agree_dropped_length :
    ∃ head request,
      parseRequestHead
        (ascii "POST / HTTP/1.1\r\nHost: a\r\nContent-Length: 5\r\n \x01\r\n\r\nhello") 8
        { allowObsFold := true, ignoreInvalidHeadersInRequests := true } = .ok head ∧
      parseRequest
        (ascii "POST / HTTP/1.1\r\nHost: a\r\nContent-Length: 5\r\n \x01\r\n\r\nhello")
        { allowObsFold := true, ignoreInvalidHeadersInRequests := true } = .ok request ∧
      head.contentLength = some 5 ∧ request.bodyFraming = .none ∧ request.consumed = head.headLen :=
  ⟨{  method := .POST
      target := ascii "/"
      version := .http11
      headers := [{ name := ascii "Host", value := ascii "a" },
        { name := ascii "Content-Length", value := ascii "5" }]
      bodyFraming := .contentLength
      contentLength := some 5
      headLen := 51 },
    { method := .POST
      target := ascii "/"
      version := .http11
      headers := [{ name := ascii "Host", value := ascii "a" }]
      body := []
      bodyFraming := .none
      trailers := []
      consumed := 51 }, by decide +kernel, by decide +kernel, rfl, rfl, rfl⟩

end Netz.Http1
