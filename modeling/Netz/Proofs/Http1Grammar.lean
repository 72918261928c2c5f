/-
The grammar of chunked bodies, and what `decodeChunked` accepts.

`Body` derives a chunked body up to its trailers.  The scan accepts what it derives with no CR or
LF in an extension, and the copy takes the data.
-/
import Netz.Http1.Chunked
import Netz.Proofs.Http1Lines

namespace Netz.Http1

open Lib List
open Http (ascii)

/-! ### The grammar -/

/-- A chunked body up to its trailers: the data, the chunk lines, and what comes behind the last
of them.  `used` is the number of bytes that the extensions before have taken. -/
inductive Body : Nat → Bytes → Bytes → List Bytes → Bytes → Prop where
  | last {used total : Nat} {line tail : Bytes} (hline : Line line)
      (hextension : countExtension used line = .ok total) (hsize : chunkSize line = .ok 0) :
      Body used (line ++ crlf ++ tail) [] [line] tail
  | chunk {used total : Nat} {line data rest body tail : Bytes} {lines : List Bytes}
      (hline : Line line) (hextension : countExtension used line = .ok total)
      (hsize : chunkSize line = .ok data.length) (hdata : data ≠ [])
      (hrest : Body total rest body lines tail) :
      Body used (line ++ crlf ++ (data ++ crlf ++ rest)) (data ++ body) (line :: lines) tail

variable {used pos len : Nat} {input body tail bytes : Bytes} {lines : List Bytes}
  {options : ParseOptions} {trailers : List Header}

lemma Body.suffix (h : Body used input body lines tail) :
    ∃ front, input = front ++ tail ∧ body.length + 2 ≤ front.length := by
  induction h with
  | @last used total line tail _ _ _ =>
    exact ⟨line ++ crlf, rfl, by rw [length_append]; exact Nat.le_add_left 2 line.length⟩
  | @chunk used total line data rest body tail lines _ _ _ _ _ ih =>
    obtain ⟨front, hfront, hlen⟩ := ih
    refine ⟨line ++ crlf ++ (data ++ crlf ++ front), ?_, ?_⟩
    · simp [hfront]
    · simp only [length_append]
      omega

lemma Body.length_of_mem (h : Body used input body lines tail) :
    ∀ line ∈ lines, line.length + 2 ≤ input.length := by
  induction h with
  | @last used total line tail _ _ _ =>
    rw [forall_mem_singleton, length_append, length_append]
    exact Nat.le_add_right _ _
  | @chunk used total line data rest body tail lines _ _ _ _ _ ih =>
    simp only [length_append]
    have hcrlf : crlf.length = 2 := rfl
    refine forall_mem_cons.mpr ⟨by omega, fun other hmem => ?_⟩
    have hother := ih other hmem
    omega

/-- No extension has CR or LF in it. -/
def Clean (lines : List Bytes) : Prop := ∀ line ∈ lines, checkExtension line = .ok ()

lemma drop_append_eq {front back : Bytes} (h : bytes.drop pos = front ++ back) :
    bytes.drop (pos + front.length) = back := by
  rw [← drop_drop, h, drop_left]

lemma Body.scanLoop {bytes body tail : Bytes} {lines : List Bytes} {rounds pos used bodyLen : Nat}
    (h : Body used (bytes.drop pos) body lines tail) (hclean : Clean lines)
    (htail : 2 ≤ tail.length) (hpos : pos ≤ bytes.length)
    (hmax : bytes.length - tail.length + 2 ≤ maxUsize) (hlen : bodyLen ≤ pos)
    (hfuel : bytes.length - pos < rounds) :
    scanLoop bytes rounds pos used bodyLen =
      .ok { bodyLen := bodyLen + body.length, trailerStart := bytes.length - tail.length } := by
  generalize hinput : bytes.drop pos = input at h
  induction h generalizing rounds pos bodyLen with
  | @last used total line tail hline hext hsize =>
    have hlength := congrArg length hinput
    simp only [length_append, length_drop] at hlength
    have hcrlf : crlf.length = 2 := rfl
    cases rounds with
    | zero => omega
    | succ rounds =>
      unfold Http1.scanLoop
      rw [hinput, hline.indexOf tail]
      dsimp only
      rw [append_assoc, take_left, hext, hclean line mem_cons_self, hsize]
      dsimp only [bind, Except.bind]
      unfold checkedAdd
      rw [if_pos (by omega)]
      dsimp only
      rw [if_pos (by omega)]
      dsimp only
      rw [if_neg (by omega)]
      have hstart : pos + line.length + 2 = bytes.length - tail.length := by omega
      rw [hstart]
      rfl
  | @chunk used total line data rest body tail lines hline hext hsize hdata hrest ih =>
    have hlength := congrArg length hinput
    simp only [length_append, length_drop] at hlength
    have hcrlf : crlf.length = 2 := rfl
    obtain ⟨front, hfront, hbody⟩ := hrest.suffix
    have hrestLength := congrArg length hfront
    rw [length_append] at hrestLength
    have hnonzero : data.length ≠ 0 := fun hzero => hdata (eq_nil_of_length_eq_zero hzero)
    have hdrop : bytes.drop (pos + line.length + 2 + data.length) = crlf ++ rest := by
      have hsplit : bytes.drop pos = line ++ crlf ++ data ++ (crlf ++ rest) := by simp [hinput]
      have hat := drop_append_eq hsplit
      simp only [length_append, ← Nat.add_assoc] at hat
      exact hat
    have hnext : bytes.drop (pos + line.length + 2 + data.length + 2) = rest := by
      rw [← drop_drop, hdrop]
      rfl
    cases rounds with
    | zero => omega
    | succ rounds =>
      unfold Http1.scanLoop
      rw [hinput, hline.indexOf]
      dsimp only
      rw [append_assoc line, take_left, hext, hclean line mem_cons_self, hsize]
      dsimp only [bind, Except.bind]
      unfold checkedAdd
      rw [if_pos (by omega)]
      dsimp only
      rw [if_pos (by omega)]
      dsimp only
      rw [if_neg (by omega), if_neg hnonzero, if_pos (by omega)]
      dsimp only
      rw [hdrop, if_neg (fun hne => hne rfl)]
      have hscan := @ih rounds (pos + line.length + 2 + data.length + 2)
        (bodyLen + data.length) (fun other hother => hclean other (mem_cons_of_mem _ hother))
        htail (by omega) hmax (by omega) (by omega) hnext
      rw [hscan, length_append, Nat.add_assoc]

lemma Body.copyLoop {bytes body tail : Bytes} {lines : List Bytes}
    {rounds pos used room : Nat} {out : Bytes} (h : Body used (bytes.drop pos) body lines tail)
    (hroom : out.length + body.length ≤ room) (hfuel : bytes.length - pos < rounds) :
    copyLoop bytes room rounds pos out = .ok (out ++ body) := by
  generalize hinput : bytes.drop pos = input at h
  induction h generalizing rounds pos out with
  | @last used total line tail hline hext hsize =>
    cases rounds with
    | zero => omega
    | succ rounds =>
      unfold Http1.copyLoop
      rw [hinput, hline.indexOf tail]
      dsimp only
      rw [append_assoc, take_left, hsize, append_nil]
      rfl
  | @chunk used total line data rest body tail lines hline hext hsize hdata hrest ih =>
    have hlen := congrArg length hinput
    simp only [length_append, length_drop] at hlen
    have hcrlf : crlf.length = 2 := rfl
    have hnonzero : data.length ≠ 0 := fun hzero => hdata (eq_nil_of_length_eq_zero hzero)
    have hdata' : bytes.drop (pos + line.length + 2) = data ++ (crlf ++ rest) := by
      rw [append_assoc data] at hinput
      have hat := drop_append_eq hinput
      rw [length_append, ← Nat.add_assoc] at hat
      exact hat
    have hnext : bytes.drop (pos + line.length + 2 + data.length + 2) = rest := by
      rw [← drop_drop, drop_append_eq hdata']
      rfl
    rw [length_append] at hroom
    cases rounds with
    | zero => omega
    | succ rounds =>
      unfold Http1.copyLoop
      rw [hinput, hline.indexOf]
      dsimp only
      rw [append_assoc line, take_left, hsize]
      dsimp only [bind, Except.bind]
      rw [if_neg hnonzero, if_neg (by omega), hdata', take_left]
      have hcopy := @ih rounds (pos + line.length + 2 + data.length + 2) (out ++ data)
        (by rw [length_append]; omega) (by omega) hnext
      rw [hcopy, append_assoc]

lemma Body.drop_tail (h : Body used input body lines tail) :
    input.drop (input.length - tail.length) = tail := by
  obtain ⟨front, rfl, -⟩ := h.suffix
  rw [length_append, Nat.add_sub_cancel, drop_left]

lemma Body.first {used : Nat} {input body tail : Bytes} {lines : List Bytes}
    (h : Body used input body lines tail) :
    ∃ line rest, input = line ++ crlf ++ rest ∧ Line line ∧
      (chunkSize line = .ok 0 → body = [] ∧ tail = rest) := by
  cases h with
  | @last used total line tail hline hext hsize =>
    exact ⟨line, tail, rfl, hline, fun _ => ⟨rfl, rfl⟩⟩
  | @chunk used total line data rest body tail lines hline hext hsize hdata hrest =>
    refine ⟨line, data ++ crlf ++ rest, rfl, hline, fun hzero => ?_⟩
    rw [hsize] at hzero
    exact absurd (eq_nil_of_length_eq_zero (Except.ok.inj hzero)) hdata

lemma decodeTrailers_empty (rest : Bytes) (options : ParseOptions) :
    decodeTrailers (crlf ++ rest) options = .ok ([], 2) := by
  have hfirst := line_nil.indexOf rest
  rw [nil_append] at hfirst
  simp [hfirst, decodeTrailers]

lemma length_of_decodeTrailers (h : decodeTrailers tail options = .ok (trailers, len)) :
    2 ≤ tail.length := by
  unfold decodeTrailers at h
  cases hidx : indexOf crlf tail with
  | none =>
    rw [hidx] at h
    cases h
  | some i => exact Nat.le_trans (Nat.le_add_left 2 i) (indexOf_le hidx)

/-- **What the grammar derives with clean extensions is decoded.** -/
theorem decodeChunked_of_body (h : Body 0 bytes body lines tail) (hclean : Clean lines)
    (hmax : bytes.length - tail.length + 2 ≤ maxUsize)
    (htrail : decodeTrailers tail options = .ok (trailers, len)) :
    decodeChunked bytes options =
      .ok { body := body, trailers := trailers, consumed := bytes.length - tail.length + len } := by
  unfold decodeChunked
  by_cases hfast : ascii "0\r\n\r\n" <+: bytes
  · -- The empty body without trailers.
    rw [if_pos hfast]
    obtain ⟨more, rfl⟩ := hfast
    obtain ⟨line, rest, hinput, hline, hzero⟩ := h.first
    obtain ⟨rfl, rfl⟩ := @Line.unique [0x30] line (crlf ++ more) rest
      (line_of_not_mem (by decide)) hline hinput
    obtain ⟨rfl, rfl⟩ := hzero (by decide)
    cases htrail
    have hused : (ascii "0\r\n\r\n" ++ more).length - (crlf ++ more).length + 2 = 5 := by
      rw [length_append, length_append]
      show 5 + more.length - (2 + more.length) + 2 = 5
      omega
    rw [hused]
  rw [if_neg hfast]
  have htail := length_of_decodeTrailers htrail
  have hscan := @Body.scanLoop bytes body tail lines (bytes.length + 1) 0 0 0 h hclean htail
    (Nat.zero_le _) hmax le_rfl (by omega)
  have hcopy := @Body.copyLoop bytes body tail lines (bytes.length + 1) 0 0 body.length [] h
    (by rw [length_nil]; omega) (by omega)
  rw [Nat.zero_add] at hscan
  unfold scanChunkedBody copyChunkedBody
  rw [hscan]
  dsimp only [bind, Except.bind]
  rw [hcopy, h.drop_tail, htrail]
  rfl

/-- **The trailers end behind an empty line.**  It is the first of their lines, or the first empty
line behind fields. -/
theorem decodeTrailers_eq_ok_iff : decodeTrailers tail options = .ok (trailers, len) ↔
      crlf <+: tail ∧ trailers = [] ∧ len = 2 ∨
      ¬crlf <+: tail ∧ ∃ trailerEnd, indexOf blank tail = some trailerEnd ∧ len = trailerEnd + 4 ∧
        parseHeaderLines (splitLines (tail.take trailerEnd)) options {} = .ok trailers ∧
        validateTrailers trailers = .ok () := by
  by_cases hfirst : crlf <+: tail
  · obtain ⟨rest, rfl⟩ := hfirst
    rw [decodeTrailers_empty, Except.ok.injEq, Prod.mk.injEq]
    constructor
    · rintro ⟨rfl, rfl⟩
      exact .inl ⟨prefix_append _ _, rfl, rfl⟩
    rintro (⟨-, rfl, rfl⟩ | ⟨hnot, -⟩)
    · exact ⟨rfl, rfl⟩
    · exact absurd (prefix_append _ _) hnot
  have hcrlf : crlf ≠ [] := by decide
  unfold decodeTrailers
  cases hline : indexOf crlf tail with
  | none =>
    refine iff_of_false nofun ?_
    rintro (⟨hpre, -⟩ | ⟨-, trailerEnd, hblank, -⟩)
    · exact hfirst hpre
    · obtain ⟨-, hfound, -⟩ := indexOf_eq_some_iff.mp hblank
      exact (indexOf_eq_none_iff hcrlf).mp hline _ (blank_prefix_iff.mp hfound).1
  | some lineEnd =>
    have hnonzero : lineEnd ≠ 0 := by
      rintro rfl
      exact hfirst (indexOf_eq_some_iff.mp hline).2.1
    have hfold : crlf ++ crlf = blank := rfl
    dsimp only
    rw [if_neg hnonzero, hfold]
    cases hblank : indexOf blank tail with
    | none => simp [hfirst]
    | some trailerEnd =>
      constructor
      · intro h
        obtain ⟨parsed, hparsed, h⟩ := bind_eq_ok h
        obtain ⟨_, hvalid, h⟩ := bind_eq_ok h
        cases h
        exact .inr ⟨hfirst, trailerEnd, rfl, rfl, hparsed, hvalid⟩
      rintro (⟨hpre, -⟩ | ⟨-, other, hother, rfl, hparsed, hvalid⟩)
      · exact absurd hpre hfirst
      cases hother
      dsimp only [bind, Except.bind]
      rw [hparsed]
      dsimp only
      rw [hvalid]
      rfl

/-! ### What is decoded -/

lemma body_last (tail : Bytes) : Body 0 ([0x30] ++ crlf ++ tail) [] [[0x30]] tail ∧
    Clean [[0x30]] := by
  refine ⟨@Body.last 0 0 [0x30] tail (line_of_not_mem (by decide)) rfl (by decide), ?_⟩
  intro line hmem
  rw [mem_singleton.mp hmem]
  rfl

lemma checkedAdd_ok_iff {e : Error} {a b total : Nat} :
    checkedAdd e a b = .ok total ↔ total = a + b ∧ a + b ≤ maxUsize := by
  unfold checkedAdd
  by_cases hle : a + b ≤ maxUsize
  · rw [if_pos hle]
    exact ⟨fun h => ⟨(Except.ok.inj h).symm, hle⟩, fun h => by rw [h.1]⟩
  · simp [hle]

lemma Body.unique {used : Nat} {input body body' tail tail' : Bytes} {lines lines' : List Bytes}
    (h : Body used input body lines tail) (h' : Body used input body' lines' tail') :
    body = body' ∧ lines = lines' ∧ tail = tail' := by
  induction h generalizing body' lines' tail' with
  | @last used total line tail hline hextension hsize =>
    generalize hinput : line ++ crlf ++ tail = input at h'
    cases h' with
    | last hline' _ _ =>
      obtain ⟨rfl, rfl⟩ := hline.unique hline' hinput
      exact ⟨rfl, rfl, rfl⟩
    | chunk hline' _ hsize' hdata' _ =>
      obtain ⟨rfl, -⟩ := hline.unique hline' hinput
      rw [hsize, Except.ok.injEq] at hsize'
      exact absurd (eq_nil_of_length_eq_zero hsize'.symm) hdata'
  | @chunk used total line data rest body tail lines hline hextension hsize hdata hrest ih =>
    generalize hinput : line ++ crlf ++ (data ++ crlf ++ rest) = input at h'
    cases h' with
    | last hline' _ hsize' =>
      obtain ⟨rfl, -⟩ := hline.unique hline' hinput
      rw [hsize, Except.ok.injEq] at hsize'
      exact absurd (eq_nil_of_length_eq_zero hsize') hdata
    | chunk hline' hextension' hsize' _ hrest' =>
      obtain ⟨rfl, hbehind⟩ := hline.unique hline' hinput
      rw [hsize, Except.ok.injEq] at hsize'
      rw [hextension, Except.ok.injEq] at hextension'
      rw [append_assoc, append_assoc] at hbehind
      obtain ⟨rfl, hsame⟩ := append_inj hbehind hsize'
      have hrests := append_cancel_left hsame
      rw [← hrests, ← hextension'] at hrest'
      obtain ⟨rfl, rfl, rfl⟩ := ih hrest'
      exact ⟨rfl, rfl, rfl⟩

lemma scanLoop_ok {rounds bodyLen : Nat} {scan : ChunkedBodyScan}
    (h : scanLoop bytes rounds pos used bodyLen = .ok scan) :
    ∃ body lines, Body used (bytes.drop pos) body lines (bytes.drop scan.trailerStart) ∧
      Clean lines := by
  induction rounds generalizing pos used bodyLen with
  | zero => cases h
  | succ rounds ih =>
    unfold scanLoop at h
    cases hidx : indexOf crlf (bytes.drop pos) with
    | none => simp [hidx] at h
    | some lineEnd =>
      rw [hidx] at h
      dsimp only at h
      obtain ⟨hline, hsplit⟩ := line_of_indexOf hidx
      generalize (bytes.drop pos).take lineEnd = line at h hline hsplit
      rw [drop_drop, ← Nat.add_assoc] at hsplit
      obtain ⟨extensionBytes, hext, h⟩ := bind_eq_ok h
      obtain ⟨_, hcheck, h⟩ := bind_eq_ok h
      obtain ⟨size, hsize, h⟩ := bind_eq_ok h
      obtain ⟨dataEnd, hdataEnd, h⟩ := bind_eq_ok h
      obtain ⟨requiredEnd, hreq, h⟩ := bind_eq_ok h
      obtain ⟨rfl, -⟩ := checkedAdd_ok_iff.mp hdataEnd
      obtain ⟨rfl, -⟩ := checkedAdd_ok_iff.mp hreq
      obtain ⟨hshort, h⟩ := of_guard h nofun
      by_cases hzero : size = 0
      · rw [if_pos hzero] at h
        cases h
        rw [hzero] at hsize
        refine ⟨[], [line], ?_, forall_mem_singleton.mpr hcheck⟩
        rw [hsplit]
        exact Body.last hline hext hsize
      rw [if_neg hzero] at h
      obtain ⟨_, -, h⟩ := bind_eq_ok h
      obtain ⟨hends, h⟩ := of_guard h nofun
      obtain ⟨body, lines, hbody, hclean⟩ := ih h
      have hbehind := (take_append_drop 2 (bytes.drop (pos + lineEnd + 2 + size))).symm
      rw [not_not.mp hends, drop_drop] at hbehind
      have hdata := (take_append_drop size (bytes.drop (pos + lineEnd + 2))).symm
      rw [drop_drop, hbehind, ← append_assoc] at hdata
      have hlen : ((bytes.drop (pos + lineEnd + 2)).take size).length = size := by
        rw [length_take, length_drop]
        omega
      generalize (bytes.drop (pos + lineEnd + 2)).take size = data at hdata hlen
      refine ⟨data ++ body, line :: lines, ?_, forall_mem_cons.mpr ⟨hcheck, hclean⟩⟩
      rw [hsplit, hdata]
      refine Body.chunk hline hext (by rw [hlen]; exact hsize) ?_ hbody
      rintro rfl
      exact hzero hlen.symm

/-- **A chunked body is decoded exactly where it has a derivation with clean extensions.** -/
theorem decodeChunked_iff {rest : Bytes} (husize : bytes.length ≤ maxUsize) :
    (∃ consumed, decodeChunked bytes options =
        .ok { body := body, trailers := trailers, consumed := consumed } ∧
      rest = bytes.drop consumed) ↔ ∃ lines tail len, Body 0 bytes body lines tail ∧ Clean lines ∧
      decodeTrailers tail options = .ok (trailers, len) ∧ rest = tail.drop len := by
  have hsound : ∀ {body tail : Bytes} {lines : List Bytes} {trailers : List Header} {len : Nat},
      Body 0 bytes body lines tail → Clean lines →
      decodeTrailers tail options = .ok (trailers, len) → decodeChunked bytes options = .ok {
        body := body
        trailers := trailers
        consumed := bytes.length - tail.length + len } ∧
      bytes.drop (bytes.length - tail.length + len) = tail.drop len := by
    intro body tail lines trailers len hbody hclean htrail
    obtain ⟨front, rfl, hfront⟩ := hbody.suffix
    have htail := length_of_decodeTrailers htrail
    rw [length_append] at husize
    refine ⟨decodeChunked_of_body hbody hclean (by rw [length_append]; omega) htrail, ?_⟩
    rw [← drop_drop, hbody.drop_tail]
  constructor
  · rintro ⟨consumed, h, rfl⟩
    have hderived : ∃ body lines tail trailers len, Body 0 bytes body lines tail ∧ Clean lines ∧
        decodeTrailers tail options = .ok (trailers, len) := by
      unfold decodeChunked at h
      by_cases hfast : ascii "0\r\n\r\n" <+: bytes
      · obtain ⟨more, rfl⟩ := hfast
        obtain ⟨hlast, hclean⟩ := body_last (crlf ++ more)
        exact ⟨_, _, _, _, _, hlast, hclean, decodeTrailers_empty more options⟩
      rw [if_neg hfast] at h
      obtain ⟨scan, hscan, h⟩ := bind_eq_ok h
      obtain ⟨_, -, h⟩ := bind_eq_ok h
      obtain ⟨⟨read, len⟩, htrail, -⟩ := bind_eq_ok h
      obtain ⟨read', lines, hbody, hclean⟩ := scanLoop_ok hscan
      exact ⟨_, _, _, _, _, hbody, hclean, htrail⟩
    obtain ⟨_, lines, tail, _, len, hbody, hclean, htrail⟩ := hderived
    obtain ⟨hdec, hrest⟩ := hsound hbody hclean htrail
    rw [hdec] at h
    cases h
    exact ⟨lines, tail, len, hbody, hclean, htrail, hrest⟩
  rintro ⟨lines, tail, len, hbody, hclean, htrail, rfl⟩
  obtain ⟨hdec, hrest⟩ := hsound hbody hclean htrail
  exact ⟨_, hdec, hrest.symm⟩

lemma clean_of_decoded {decoded : DecodedChunked} (husize : bytes.length ≤ maxUsize)
    (h : decodeChunked bytes options = .ok decoded) :
    ∀ body lines tail trailers len, Body 0 bytes body lines tail →
      decodeTrailers tail options = .ok (trailers, len) → Clean lines := by
  intro body lines tail trailers len hbody _
  obtain ⟨lines', tail', len', hbody', hclean, -⟩ :=
    (decodeChunked_iff husize).mp ⟨decoded.consumed, h, rfl⟩
  obtain ⟨-, rfl, -⟩ := hbody.unique hbody'
  exact hclean

end Netz.Http1
