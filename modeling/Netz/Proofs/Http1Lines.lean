/-
Lines that end with CRLF, and the fields on them.

A `Line` has no CRLF in it, so a search stops behind it.  The empty line that ends a head or the
trailers is the first place where CRLF stands twice, and a split of what comes before it gives the
lines back.
-/
import Mathlib.Data.List.Forall2
import Netz.Http1.Wire

namespace Netz.Http1

open Lib List
open Http (ascii)

/-! ### Lines -/

/-- The first CRLF behind a line ends it. -/
def Line (line : Bytes) : Prop := indexOf crlf (line ++ crlf) = some line.length

variable {line bytes rest : Bytes} {lines : List Bytes} {policy : HeaderParsePolicy}
  {options : ParseOptions} {headers : List Header}

lemma Line.indexOf (h : Line line) (rest : Bytes) :
    indexOf crlf (line ++ crlf ++ rest) = some line.length :=
  indexOf_append h rest

lemma line_of_indexOf {i : Nat} (h : indexOf crlf bytes = some i) :
    Line (bytes.take i) ∧ bytes = bytes.take i ++ crlf ++ bytes.drop (i + 2) := by
  refine ⟨?_, eq_of_indexOf h⟩
  have hroom := indexOf_le h
  unfold Line
  rw [length_take_of_le (by omega)]
  exact indexOf_front h

lemma crlf_prefix_iff : crlf <+: bytes ↔ bytes[0]? = some cr ∧ bytes[1]? = some lf := by
  rw [prefix_iff_getElem?]
  unfold crlf
  constructor
  · intro h
    exact ⟨h 0 (by decide), h 1 (by decide)⟩
  rintro ⟨hcr, hlf⟩ i hi
  match i, hi with
  | 0, _ => exact hcr
  | 1, _ => exact hlf

lemma Line.not_prefix (h : Line line) (rest : Bytes) {j : Nat} (hj : j < line.length) :
    ¬crlf <+: (line ++ crlf ++ rest).drop j :=
  (indexOf_eq_some_iff.mp (h.indexOf rest)).2.2 j hj

lemma line_nil : Line [] := rfl

lemma Line.unique {line line' rest rest' : Bytes} (h : Line line) (h' : Line line')
    (heq : line ++ crlf ++ rest = line' ++ crlf ++ rest') : line = line' ∧ rest = rest' := by
  have hidx := h.indexOf rest
  rw [heq, h'.indexOf rest', Option.some.injEq] at hidx
  rw [append_assoc, append_assoc] at heq
  obtain ⟨hline, hrest⟩ := append_inj heq hidx.symm
  exact ⟨hline, (append_cancel_left hrest)⟩

lemma line_of_not_mem (h : cr ∉ line) : Line line := by
  refine indexOf_eq_some_iff.mpr ⟨by rw [length_append]; omega, ?_, fun j hj hfound => ?_⟩
  · simp
  obtain ⟨hcr, -⟩ := crlf_prefix_iff.mp hfound
  rw [getElem?_drop, Nat.add_zero, getElem?_append_left hj] at hcr
  exact h (mem_of_getElem? hcr)

/-! ### The empty line -/

def blank : Bytes := crlf ++ crlf

lemma blank_prefix_iff : blank <+: bytes ↔ crlf <+: bytes ∧ crlf <+: bytes.drop 2 := by
  rw [prefix_iff_getElem?, crlf_prefix_iff, crlf_prefix_iff, getElem?_drop,
    getElem?_drop]
  constructor
  · intro h
    exact ⟨⟨h 0 (by decide), h 1 (by decide)⟩, h 2 (by decide), h 3 (by decide)⟩
  rintro ⟨⟨h0, h1⟩, h2, h3⟩ i hi
  match i, hi with
  | 0, _ => exact h0
  | 1, _ => exact h1
  | 2, _ => exact h2
  | 3, _ => exact h3

lemma Line.blank_here (h : Line line) (rest : Bytes) :
    Lib.indexOf blank (line ++ crlf ++ (crlf ++ rest)) = some line.length := by
  refine indexOf_eq_some_iff.mpr ⟨?_, ?_, fun j hj hfound => ?_⟩
  · simp
  · rw [append_assoc, drop_left]
    exact prefix_append _ _
  · exact h.not_prefix _ hj (blank_prefix_iff.mp hfound).1

lemma Line.blank_later (h : Line line) (hrest : ¬crlf <+: rest) :
    Lib.indexOf blank (line ++ crlf ++ rest) =
      (Lib.indexOf blank rest).map (· + (line.length + 2)) := by
  have hlen : (line ++ crlf).length = line.length + 2 := length_append
  -- The empty line stands neither in the line nor across its end.
  have hnone : ∀ j < line.length + 2, ¬blank <+: (line ++ crlf ++ rest).drop j := by
    intro j hj hfound
    obtain ⟨hfirst, hsecond⟩ := blank_prefix_iff.mp hfound
    rcases Nat.lt_trichotomy j line.length with hlt | heq | hgt
    · exact h.not_prefix rest hlt hfirst
    · rw [drop_drop, drop_left' (by omega)] at hsecond
      exact hrest hsecond
    have hend : j = line.length + 1 := by omega
    obtain ⟨hcr, -⟩ := crlf_prefix_iff.mp hfirst
    rw [getElem?_drop, hend, append_assoc, getElem?_append_right (by omega)] at hcr
    rw [show line.length + 1 + 0 - line.length = 1 by omega] at hcr
    exact absurd hcr (by decide : ¬some lf = some cr)
  have hdrop : ∀ i, (line ++ crlf ++ rest).drop (i + (line.length + 2)) = rest.drop i := by
    intro i
    rw [Nat.add_comm, ← drop_drop, drop_left' hlen]
  cases hidx : Lib.indexOf blank rest with
  | none =>
    refine (indexOf_eq_none_iff (by decide)).mpr fun j hfound => ?_
    by_cases hj : j < line.length + 2
    · exact hnone j hj hfound
    · rw [show j = (j - (line.length + 2)) + (line.length + 2) by omega, hdrop] at hfound
      exact (indexOf_eq_none_iff (by decide)).mp hidx _ hfound
  | some i =>
    obtain ⟨hi, hfound, hfirst⟩ := indexOf_eq_some_iff.mp hidx
    rw [Option.map_some]
    refine indexOf_eq_some_iff.mpr ⟨?_, by rw [hdrop]; exact hfound, fun j hj hpre => ?_⟩
    · rw [length_append]
      omega
    by_cases hlt : j < line.length + 2
    · exact hnone j hlt hpre
    · rw [show j = (j - (line.length + 2)) + (line.length + 2) by omega, hdrop] at hpre
      exact hfirst _ (by omega) hpre

/-! ### Splitting -/

lemma splitLines_cons {byte : UInt8} (h : ¬crlf <+: byte :: rest) :
    splitLines (byte :: rest) = prepend byte (splitLines rest) := by
  cases rest with
  | nil => rfl
  | cons next rest =>
    rw [splitLines, if_neg]
    rintro ⟨rfl, rfl⟩
    exact h (prefix_append crlf rest)

/-- **The first line of several.** -/
theorem Line.splitLines (h : Line line) (rest : Bytes) :
    splitLines (line ++ crlf ++ rest) = line :: Http1.splitLines rest := by
  have key : ∀ front : Bytes, (∀ j < front.length, ¬crlf <+: (front ++ crlf ++ rest).drop j) →
      Http1.splitLines (front ++ crlf ++ rest) = front :: Http1.splitLines rest := by
    intro front
    induction front with
    | nil => intro _; rfl
    | cons byte front ih =>
      intro hnone
      have hhere : ¬crlf <+: byte :: (front ++ crlf ++ rest) := hnone 0 (Nat.zero_lt_succ _)
      rw [cons_append, cons_append, splitLines_cons hhere,
        ih fun j hj => hnone (j + 1) (Nat.succ_lt_succ hj)]
      rfl
  exact key line fun j hj => h.not_prefix rest hj

lemma Line.splitLines_last (h : Line line) : Http1.splitLines line = [line] := by
  have key : ∀ front : Bytes, (∀ j, ¬crlf <+: front.drop j) → Http1.splitLines front = [front] := by
    intro front
    induction front with
    | nil => intro _; rfl
    | cons byte front ih =>
      intro hnone
      rw [splitLines_cons (hnone 0), ih fun j => hnone (j + 1)]
      rfl
  refine key line fun j hfound => ?_
  by_cases hj : j < line.length
  · refine h.not_prefix [] hj ?_
    rw [append_nil, drop_append_of_le_length hj.le]
    exact hfound.trans (prefix_append _ _)
  · rw [drop_eq_nil_of_le (not_lt.mp hj)] at hfound
    exact absurd (prefix_nil.mp hfound) (by decide)

lemma Line.not_crlf (h : Line line) (hne : line ≠ []) (rest : Bytes) :
    ¬crlf <+: line ++ crlf ++ rest :=
  h.not_prefix rest (length_pos_of_ne_nil hne)

/-- **Lines end at the first empty one, and a split gives them back.** -/
theorem blank_of_lines (h : Line line) (hlines : ∀ other ∈ lines, Line other ∧ other ≠ []) :
    ∃ block, (line :: lines).flatMap (· ++ crlf) = block ++ crlf ∧
      (∀ rest, indexOf blank (block ++ crlf ++ (crlf ++ rest)) = some block.length) ∧
      Http1.splitLines block = line :: lines := by
  induction lines generalizing line with
  | nil => exact ⟨line, append_nil _, fun rest => h.blank_here rest, h.splitLines_last⟩
  | cons next lines ih =>
    obtain ⟨⟨hnext, hne⟩, hothers⟩ := forall_mem_cons.mp hlines
    obtain ⟨block, hblock, hidx, hsplit⟩ := ih hnext hothers
    refine ⟨line ++ crlf ++ block, ?_, fun rest => ?_, ?_⟩
    · rw [flatMap_cons, hblock, append_assoc (line ++ crlf)]
    · have hfirst : ¬crlf <+: block ++ crlf ++ (crlf ++ rest) := by
        rw [← hblock, flatMap_cons, append_assoc]
        exact hnext.not_crlf hne _
      have hlater := h.blank_later hfirst
      rw [hidx rest, Option.map_some] at hlater
      simp only [append_assoc] at hlater ⊢
      rw [hlater]
      simp only [length_append]
      have hcrlf : crlf.length = 2 := rfl
      congr 1
      omega
    · rw [h.splitLines, hsplit]

/-! ### Fields -/

/-- A line that holds a field, and the field. -/
structure Holds (policy : HeaderParsePolicy) (line : Bytes) (header : Header) : Prop where
  nonempty : line.length ≠ 0
  fresh : isContinuation line = false
  parsed : parseHeaderLine line policy.allowSpacesBeforeColon = .ok header

lemma Holds.fillHeader {header : Header} (h : Holds policy line header) :
    fillHeader policy line = some header := by
  unfold Http1.fillHeader
  rw [if_neg h.nonempty, h.fresh, h.parsed]
  rfl

lemma countHeaderLines_of_holds (h : Forall₂ (Holds policy) lines headers) (count : Nat)
    (hroom : count + headers.length ≤ options.maxHeaders) :
    countHeaderLines options policy lines count = .ok (count + headers.length) := by
  induction h generalizing count with
  | nil => rfl
  | cons hline _ ih =>
    rw [length_cons] at hroom ⊢
    unfold countHeaderLines
    rw [if_neg hline.nonempty, hline.fresh, if_neg Bool.false_ne_true, hline.parsed]
    dsimp only
    rw [if_neg (by omega), ih (count + 1) (by omega)]
    congr 1
    omega

lemma foldlM_of_holds (h : Forall₂ (Holds policy) lines headers) (before : List Header)
    (hroom : before.length + headers.length ≤ options.maxHeaders) :
    lines.foldlM (foldHeaderLine options policy)
        { headers := before, skipContinuations := false } =
      .ok { headers := before ++ headers, skipContinuations := false } := by
  induction h generalizing before with
  | nil =>
    rw [append_nil]
    rfl
  | @cons line header lines headers hline _ ih =>
    rw [length_cons] at hroom
    have hone : foldHeaderLine options policy
        { headers := before, skipContinuations := false } line =
        .ok { headers := before ++ [header], skipContinuations := false } := by
      unfold foldHeaderLine
      rw [if_neg hline.nonempty, hline.fresh, if_neg Bool.false_ne_true, hline.parsed]
      dsimp only
      rw [if_neg (by omega)]
    rw [foldlM_cons, hone]
    have hrest := ih (before ++ [header]) (by rw [length_append, length_singleton]; omega)
    rw [append_assoc] at hrest
    exact hrest

/-- **Lines that hold fields are parsed to them, folded or not.** -/
theorem parseHeaderLines_of_holds (h : Forall₂ (Holds policy) lines headers)
    (hroom : headers.length ≤ options.maxHeaders) :
    parseHeaderLines lines options policy = .ok headers := by
  unfold parseHeaderLines
  cases options.allowObsFold with
  | false =>
    unfold parseHeaderLinesNoFold
    rw [countHeaderLines_of_holds h 0 (by omega)]
    have hfill : lines.filterMap (fillHeader policy) = headers := by
      clear hroom
      induction h with
      | nil => rfl
      | cons hline _ ih => rw [filterMap_cons_some hline.fillHeader, ih]
    simp [hfill]
  | true =>
    rw [foldlM_of_holds h [] (by rw [length_nil]; omega)]
    rfl

end Netz.Http1
