/-
What `encodeChunked` writes is read back.

Sizes and fields are written on lines of their own.  The lines of a body derive it, unless one of
its chunks is empty: that one ends it.
-/
import Netz.Proofs.Http1Grammar

namespace Netz.Http1

open Lib List
open Http (ascii)

/-! ### Hexadecimal numbers -/

variable {value len total : Nat} {header : Header} {byte : UInt8} {headers trailers : List Header}
  {chunks : List Bytes}

lemma digitValue_hexDigit (h : value < 16) : digitValue (hexDigit value) = some value := by
  have hall : ∀ v : Fin 16, digitValue (hexDigit v.val) = some v.val := by decide
  exact hall ⟨value, h⟩

lemma ofDigits_concat (base : Nat) (digits : Bytes) (byte : UInt8) :
    ofDigits base (digits ++ [byte]) = ofDigits base digits * base + (digitValue byte).getD 0 := by
  simp [ofDigits]

lemma ofDigits_hexDigits {room : Nat} (h : value < 16 ^ room) :
    ofDigits 16 (hexDigits room value) = value := by
  induction room generalizing value with
  | zero =>
    have hzero : value = 0 := by omega
    rw [hzero]
    rfl
  | succ room ih =>
    unfold hexDigits
    by_cases hsmall : value < 16
    · rw [if_pos hsmall]
      have hone := ofDigits_concat 16 [] (hexDigit value)
      rw [nil_append, digitValue_hexDigit hsmall] at hone
      rw [hone]
      exact Nat.zero_add _
    rw [if_neg hsmall, ofDigits_concat, ih (by rw [Nat.pow_succ] at h; omega),
      digitValue_hexDigit (Nat.mod_lt _ (by decide)), Option.getD_some]
    omega

lemma hexDigits_isHex (room value : Nat) : ∀ byte ∈ hexDigits room value, isHex byte = true := by
  have hdigit : ∀ {v : Nat}, v < 16 → isHex (hexDigit v) = true := by
    intro v hv
    simp [digitValue_hexDigit hv, isHex]
  induction room generalizing value with
  | zero => nofun
  | succ room ih =>
    intro byte hbyte
    unfold hexDigits at hbyte
    by_cases hsmall : value < 16
    · rw [if_pos hsmall, mem_singleton] at hbyte
      rw [hbyte]
      exact hdigit hsmall
    rw [if_neg hsmall, mem_append, mem_singleton] at hbyte
    rcases hbyte with hfront | rfl
    · exact ih (value / 16) byte hfront
    · exact hdigit (Nat.mod_lt _ (by decide))

lemma renderHex_length_pos (value : Nat) : (renderHex value).length ≠ 0 := by
  unfold renderHex hexDigits
  split
  · exact Nat.one_ne_zero
  · simp

lemma hex_spec (byte : UInt8) (h : isHex byte = true) : byte ≠ cr ∧ byte ≠ 0x3b := by
  constructor <;> rintro rfl <;> exact absurd h (by decide)

lemma chunkSize_renderHex (h : value ≤ maxUsize) :
    Line (renderHex value) ∧ semicolon (renderHex value) = (renderHex value).length ∧
      chunkSize (renderHex value) = .ok value := by
  have hhex : ∀ byte ∈ renderHex value, isHex byte = true := hexDigits_isHex 16 value
  have hsemi : semicolon (renderHex value) = (renderHex value).length := by
    unfold semicolon
    rw [takeWhile_eq_self_iff.mpr fun byte hbyte => ?_]
    exact bne_iff_ne.mpr (hex_spec byte (hhex byte hbyte)).2
  refine ⟨line_of_not_mem fun hmem => (hex_spec cr (hhex cr hmem)).1 rfl, hsemi, ?_⟩
  have hpart : chunkSizePart (renderHex value) = .ok (renderHex value) := by
    unfold chunkSizePart
    rw [takeWhile_eq_self_iff.mpr hhex]
    simp [(renderHex_length_pos value)]
  have hvalue : ofDigits 16 (renderHex value) = value :=
    ofDigits_hexDigits (h.trans_lt (by decide))
  unfold chunkSize
  rw [hsemi, take_length, hpart]
  show parseChunkSize (renderHex value) = .ok value
  unfold parseChunkSize
  rw [if_neg (renderHex_length_pos value), if_pos (all_eq_true.mpr hhex), hvalue, if_pos h]

/-! ### Written trailers -/

/-- The line of a field, as it is written. -/
def fieldLine (header : Header) : Bytes := header.name ++ ascii ": " ++ header.value

/-- A field without the whitespace around its value. -/
def Header.trimmed (header : Header) : Header := { header with value := trimOws header.value }

lemma validateHeader_iff : validateHeader header = .ok () ↔
    (header.name ≠ [] ∧ ∀ byte ∈ header.name, validHeaderNameByte byte = true) ∧
      ∀ byte ∈ header.value, validHeaderValueByte byte = true := by
  unfold validateHeader validateHeaderName validateHeaderValue
  by_cases hempty : header.name = []
  · rw [if_pos (by rw [hempty]; rfl)]
    exact iff_of_false nofun fun h => h.1.1 hempty
  rw [if_neg fun hzero => hempty (eq_nil_of_length_eq_zero hzero)]
  by_cases hname : header.name.all validHeaderNameByte = true
  · rw [if_pos hname]
    by_cases hvalue : header.value.all validHeaderValueByte = true
    · exact iff_of_true (by rw [if_pos hvalue]; rfl)
        ⟨⟨hempty, all_eq_true.mp hname⟩, all_eq_true.mp hvalue⟩
    · exact iff_of_false (by rw [if_neg hvalue]; nofun)
        fun h => hvalue (all_eq_true.mpr h.2)
  · rw [if_neg hname]
    exact iff_of_false nofun fun h => hname (all_eq_true.mpr h.1.2)

lemma nameByte_spec (h : validHeaderNameByte byte = true) :
    byte ≠ cr ∧ byte ≠ 0x3a ∧ isOws byte = false := by
  refine ⟨?_, ?_, ?_⟩
  · rintro rfl
    exact absurd h (by decide)
  · rintro rfl
    exact absurd h (by decide)
  by_contra hows
  rw [Bool.not_eq_false] at hows
  unfold isOws at hows
  rcases Bool.or_eq_true_iff.mp hows with hspace | htab
  · rw [eq_of_beq hspace] at h
    exact absurd h (by decide)
  · rw [eq_of_beq htab] at h
    exact absurd h (by decide)

lemma trimOws_space (value : Bytes) : trimOws (0x20 :: value) = trimOws value := by
  unfold trimOws
  rw [dropWhile_cons_of_pos (by decide)]

lemma mem_of_mem_trimOws {value : Bytes} (h : byte ∈ trimOws value) : byte ∈ value :=
  (dropWhile_sublist _).mem ((List.rdropWhile_prefix _ _).mem h)

/-- **A written field is read back.** -/
theorem holds_fieldLine (h : validateHeader header = .ok ()) :
    Line (fieldLine header) ∧ Holds {} (fieldLine header) header.trimmed := by
  obtain ⟨⟨hempty, hname⟩, hvalue⟩ := validateHeader_iff.mp h
  have hcrValue : cr ∉ header.value := fun hmem => absurd (hvalue cr hmem) (by decide)
  have hcr : cr ∉ fieldLine header := by
    unfold fieldLine
    rw [mem_append, mem_append]
    rintro ((hin | hin) | hin)
    · exact (nameByte_spec (hname cr hin)).1 rfl
    · exact absurd hin (by decide)
    · exact hcrValue hin
  have hsplit : fieldLine header = header.name ++ 0x3a :: 0x20 :: header.value := by
    unfold fieldLine
    rw [append_assoc]
    rfl
  refine ⟨line_of_not_mem hcr, ?_, ?_, ?_⟩
  · simp [hsplit]
  · rw [hsplit]
    obtain ⟨first, rest, hcons⟩ := exists_cons_of_ne_nil hempty
    rw [hcons]
    exact (nameByte_spec (hname first (by rw [hcons]; exact mem_cons_self))).2.2
  have hpre : (fieldLine header).takeWhile (· != 0x3a) = header.name := by
    rw [hsplit, takeWhile_append_of_pos fun byte hbyte =>
      bne_iff_ne.mpr (nameByte_spec (hname byte hbyte)).2.1,
      takeWhile_cons_of_neg (by decide), append_nil]
  have hafter : (fieldLine header).drop (header.name.length + 1) = 0x20 :: header.value := by
    rw [hsplit, ← drop_drop, drop_left]
    rfl
  have hcolon : (0x3a : UInt8) ∈ fieldLine header := by simp [hsplit]
  unfold parseHeaderLine
  rw [if_pos hcolon, hpre]
  dsimp only
  rw [hafter, trimOws_space]
  have hvalidName : validateHeaderName header.name = .ok () := by
    unfold validateHeaderName
    rw [if_neg (fun hzero => hempty (eq_nil_of_length_eq_zero hzero)),
      if_pos (all_eq_true.mpr hname)]
  have hvalidValue : validateHeaderValue (trimOws header.value) = .ok () := by
    unfold validateHeaderValue
    rw [if_pos (all_eq_true.mpr fun byte hbyte => hvalue byte (mem_of_mem_trimOws hbyte))]
  rw [if_neg Bool.false_ne_true, hvalidName, hvalidValue]
  rfl

/-- Written fields end at the first empty line, and are split into their lines. -/
theorem written_fields (h : ∀ written ∈ header :: headers, validateHeader written = .ok ()) :
    ∃ block, (header :: headers).flatMap writeHeader = block ++ crlf ∧
      (∀ rest, indexOf blank (block ++ crlf ++ (crlf ++ rest)) = some block.length) ∧
      splitLines block = (header :: headers).map fieldLine := by
  have hlines : ∀ line ∈ headers.map fieldLine, Line line ∧ line ≠ [] := by
    rw [forall_mem_map]
    intro written hmem
    obtain ⟨hline, hholds⟩ := holds_fieldLine (h written (mem_cons_of_mem _ hmem))
    exact ⟨hline, fun hnil => hholds.nonempty (by rw [hnil]; rfl)⟩
  obtain ⟨hfirst, -⟩ := holds_fieldLine (h header mem_cons_self)
  obtain ⟨block, hblock, hidx, hsplit⟩ := blank_of_lines hfirst hlines
  refine ⟨block, ?_, hidx, hsplit⟩
  rw [← hblock, ← map_cons, flatMap_map]
  rfl

/-- **The trailers that are written are read back.** -/
theorem decodeTrailers_written {options : ParseOptions}
    (h : ∀ trailer ∈ trailers, validateHeader trailer = .ok ())
    (hnames : validateTrailers trailers = .ok ()) (hroom : trailers.length ≤ options.maxHeaders)
    (rest : Bytes) :
    decodeTrailers (trailers.flatMap writeHeader ++ crlf ++ rest) options =
      .ok (trailers.map Header.trimmed, (trailers.flatMap writeHeader ++ crlf).length) := by
  cases trailers with
  | nil => exact decodeTrailers_empty rest options
  | cons header headers =>
    obtain ⟨hline, hholds⟩ := holds_fieldLine (h header mem_cons_self)
    obtain ⟨block, hblock, hidx, hsplit⟩ := written_fields h
    have hfirst : indexOf crlf ((header :: headers).flatMap writeHeader ++ crlf ++ rest) =
        some (fieldLine header).length := by
      rw [flatMap_cons, append_assoc, append_assoc]
      exact hline.indexOf _
    have hblank : indexOf (crlf ++ crlf)
        ((header :: headers).flatMap writeHeader ++ crlf ++ rest) = some block.length := by
      rw [hblock, append_assoc (block ++ crlf)]
      exact hidx rest
    have hparsed : parseHeaderLines ((header :: headers).map fieldLine) options {} =
        .ok ((header :: headers).map Header.trimmed) := by
      refine parseHeaderLines_of_holds ?_ (by rw [length_map]; exact hroom)
      rw [forall₂_map_left_iff, forall₂_map_right_iff, forall₂_same]
      exact fun trailer hmem => (holds_fieldLine (h trailer hmem)).2
    have hvalid : validateTrailers ((header :: headers).map Header.trimmed) = .ok () := by
      unfold validateTrailers at hnames ⊢
      rw [all_map]
      exact hnames
    unfold decodeTrailers
    rw [hfirst]
    dsimp only
    rw [if_neg hholds.nonempty, hblank]
    dsimp only
    have htake : ((header :: headers).flatMap writeHeader ++ crlf ++ rest).take block.length =
        block := by
      rw [hblock, append_assoc, append_assoc, take_left]
    rw [htake, hsplit, hparsed]
    dsimp only [bind, Except.bind]
    rw [hvalid, hblock]
    simp only [length_append]
    rfl

/-! ### Encoding -/

lemma chunksWireLen_ok (h : chunksWireLen chunks len = .ok total) :
    total = len + (chunks.flatMap writeChunk).length := by
  induction chunks generalizing len with
  | nil =>
    cases h
    rfl
  | cons chunk chunks ih =>
    unfold chunksWireLen at h
    obtain ⟨a, ha, h⟩ := bind_eq_ok h
    obtain ⟨b, hb, h⟩ := bind_eq_ok h
    obtain ⟨c, hc, h⟩ := bind_eq_ok h
    obtain ⟨d, hd, h⟩ := bind_eq_ok h
    obtain ⟨rfl, -⟩ := checkedAdd_ok_iff.mp ha
    obtain ⟨rfl, -⟩ := checkedAdd_ok_iff.mp hb
    obtain ⟨rfl, -⟩ := checkedAdd_ok_iff.mp hc
    obtain ⟨rfl, -⟩ := checkedAdd_ok_iff.mp hd
    have hcrlf : crlf.length = 2 := rfl
    rw [ih h, flatMap_cons]
    unfold writeChunk hexDigitLen
    simp only [length_append]
    omega

lemma headerBlockWireLen_ok (h : headerBlockWireLen headers len = .ok total) :
    total = len + (headers.flatMap writeHeader).length ∧
      ∀ header ∈ headers, validateHeader header = .ok () := by
  induction headers generalizing len with
  | nil =>
    cases h
    exact ⟨rfl, nofun⟩
  | cons header headers ih =>
    unfold headerBlockWireLen at h
    obtain ⟨_, hvalid, h⟩ := bind_eq_ok h
    obtain ⟨a, ha, h⟩ := bind_eq_ok h
    obtain ⟨b, hb, h⟩ := bind_eq_ok h
    obtain ⟨c, hc, h⟩ := bind_eq_ok h
    obtain ⟨d, hd, h⟩ := bind_eq_ok h
    obtain ⟨rfl, -⟩ := checkedAdd_ok_iff.mp ha
    obtain ⟨rfl, -⟩ := checkedAdd_ok_iff.mp hb
    obtain ⟨rfl, -⟩ := checkedAdd_ok_iff.mp hc
    obtain ⟨rfl, -⟩ := checkedAdd_ok_iff.mp hd
    obtain ⟨htotal, hrest⟩ := ih h
    have hcrlf : crlf.length = 2 := rfl
    have hcolon : (ascii ": ").length = 2 := rfl
    constructor
    · rw [htotal, flatMap_cons]
      unfold writeHeader
      simp only [length_append]
      omega
    intro written hmem
    rcases mem_cons.mp hmem with rfl | hin
    · exact hvalid
    · exact hrest written hin

/-- What is written, and that its length is a `usize`. -/
theorem encodeChunked_ok {out : Bytes} (h : encodeChunked chunks trailers = .ok out) :
    validateTrailers trailers = .ok () ∧
      (∀ trailer ∈ trailers, validateHeader trailer = .ok ()) ∧ out.length ≤ maxUsize ∧
      out = chunks.flatMap writeChunk ++ ([0x30] ++ crlf ++
        (trailers.flatMap writeHeader ++ crlf)) := by
  unfold encodeChunked at h
  obtain ⟨_, hnames, h⟩ := bind_eq_ok h
  by_cases hempty : chunks.length = 0 ∧ trailers.length = 0
  · rw [if_pos hempty] at h
    cases h
    obtain ⟨hchunks, htrail⟩ := hempty
    rw [eq_nil_of_length_eq_zero hchunks, eq_nil_of_length_eq_zero htrail]
    exact ⟨rfl, nofun, by decide, rfl⟩
  rw [if_neg hempty] at h
  obtain ⟨a, ha, h⟩ := bind_eq_ok h
  obtain ⟨b, hb, h⟩ := bind_eq_ok h
  obtain ⟨c, hc, h⟩ := bind_eq_ok h
  obtain ⟨d, hd, h⟩ := bind_eq_ok h
  obtain ⟨e, he, h⟩ := bind_eq_ok h
  cases h
  have hchunks := chunksWireLen_ok ha
  obtain ⟨htrail, hvalid⟩ := headerBlockWireLen_ok hc
  obtain ⟨hbTotal, -⟩ := checkedAdd_ok_iff.mp hb
  obtain ⟨hdTotal, -⟩ := checkedAdd_ok_iff.mp hd
  obtain ⟨heTotal, hmax⟩ := checkedAdd_ok_iff.mp he
  have hcrlf : crlf.length = 2 := rfl
  have hzero : (ascii "0\r\n").length = 3 := rfl
  refine ⟨hnames, hvalid, ?_, ?_⟩
  · simp only [length_append]
    omega
  · simp only [append_assoc]
    rfl

/-! ### The round trip -/

lemma length_le_of_written {max : Nat} (hmax : (chunks.flatMap writeChunk).length ≤ max) :
    ∀ chunk ∈ chunks, chunk.length ≤ max := by
  intro chunk hmem
  obtain ⟨front, back, rfl⟩ := append_of_mem hmem
  have hwrite : (writeChunk chunk).length =
      (renderHex chunk.length ++ crlf ++ chunk ++ crlf).length := rfl
  simp only [flatMap_append, flatMap_cons, length_append, hwrite] at hmax
  omega

/-- What holds of the sizes, and of the chunk lines behind them, holds of all lines. -/
theorem body_of_chunks {P : Bytes → Prop} {rest body tail : Bytes} {lines : List Bytes}
    (hsizes : ∀ chunk ∈ chunks, chunk.length ≤ maxUsize) (hne : ∀ chunk ∈ chunks, chunk ≠ [])
    (hP : ∀ chunk ∈ chunks, P (renderHex chunk.length))
    (hrest : Body 0 rest body lines tail) (hlines : ∀ line ∈ lines, P line) :
    ∃ written, Body 0 (chunks.flatMap writeChunk ++ rest) (chunks.flatten ++ body) written tail ∧
      ∀ line ∈ written, P line := by
  induction chunks with
  | nil => exact ⟨lines, hrest, hlines⟩
  | cons chunk chunks ih =>
    rw [forall_mem_cons] at hsizes hne hP
    obtain ⟨written, hbody, hwritten⟩ := ih hsizes.2 hne.2 hP.2
    obtain ⟨hline, hsemi, hsize⟩ := chunkSize_renderHex hsizes.1
    have hext : countExtension 0 (renderHex chunk.length) = .ok 0 := by simp [hsemi, countExtension]
    refine ⟨renderHex chunk.length :: written, ?_, forall_mem_cons.mpr ⟨hP.1, hwritten⟩⟩
    have hstep := Body.chunk hline hext hsize hne.1 hbody
    have hwrite : writeChunk chunk = renderHex chunk.length ++ crlf ++ chunk ++ crlf := rfl
    rw [flatMap_cons, flatten_cons, hwrite]
    simp only [append_assoc] at hstep ⊢
    exact hstep

/-- Written chunks, none of which is empty, and what a decoder finds behind the last chunk line. -/
theorem decodeChunked_written {chunks : List Bytes} {trailers : List Header} {tail : Bytes}
    {options : ParseOptions} {len : Nat} (hne : ∀ chunk ∈ chunks, chunk ≠ [])
    (hmax : (chunks.flatMap writeChunk).length + 5 ≤ maxUsize)
    (htrail : decodeTrailers tail options = .ok (trailers, len)) :
    decodeChunked (chunks.flatMap writeChunk ++ ([0x30] ++ crlf ++ tail)) options = .ok {
        body := chunks.flatten
        trailers := trailers
        consumed := (chunks.flatMap writeChunk).length + 3 + len } := by
  have hsizes : ∀ chunk ∈ chunks, chunk.length ≤ maxUsize := length_le_of_written (by omega)
  obtain ⟨hlast, hlastClean⟩ := body_last tail
  obtain ⟨written, hbody, hclean⟩ := body_of_chunks hsizes hne
    (fun chunk hmem => by simp [(chunkSize_renderHex (hsizes chunk hmem)).2.1, checkExtension])
    hlast hlastClean
  have hlen : (chunks.flatMap writeChunk ++ ([0x30] ++ crlf ++ tail)).length - tail.length =
      (chunks.flatMap writeChunk).length + 3 := by
    simp only [length_append]
    have hcrlf : crlf.length = 2 := rfl
    have hzero : [(0x30 : UInt8)].length = 1 := rfl
    omega
  rw [append_nil] at hbody
  rw [decodeChunked_of_body hbody hclean (by rw [hlen]; omega) htrail, hlen]

lemma nonempty_or_split (chunks : List Bytes) : (∀ chunk ∈ chunks, chunk ≠ []) ∨
    ∃ front back, chunks = front ++ [] :: back ∧ ∀ chunk ∈ front, chunk ≠ [] := by
  induction chunks with
  | nil => exact .inl nofun
  | cons chunk chunks ih =>
    by_cases hempty : chunk = []
    · exact .inr ⟨[], chunks, by rw [hempty]; rfl, nofun⟩
    rcases ih with hall | ⟨front, back, hsplit, hfront⟩
    · exact .inl (forall_mem_cons.mpr ⟨hempty, hall⟩)
    · exact .inr ⟨chunk :: front, back, by rw [hsplit]; rfl,
        forall_mem_cons.mpr ⟨hempty, hfront⟩⟩

/-- **A chunked body is read back exactly where no chunk is empty.**  An empty chunk is written as
the last one, and what comes behind it is left for the next message. -/
theorem chunked_round_trip {chunks : List Bytes} {trailers : List Header} {out : Bytes}
    (options : ParseOptions) (rest : Bytes) (h : encodeChunked chunks trailers = .ok out)
    (hroom : trailers.length ≤ options.maxHeaders) :
    decodeChunked (out ++ rest) options = .ok {
        body := chunks.flatten
        trailers := trailers.map Header.trimmed
        consumed := out.length } ↔ ∀ chunk ∈ chunks, chunk ≠ [] := by
  obtain ⟨hnames, hvalid, hmax, rfl⟩ := encodeChunked_ok h
  have hcrlf : crlf.length = 2 := rfl
  have hzero : [(0x30 : UInt8)].length = 1 := rfl
  simp only [length_append] at hmax
  rcases nonempty_or_split chunks with hall | ⟨front, back, rfl, hfront⟩
  · refine iff_of_true ?_ hall
    have hdecode := decodeChunked_written hall (by omega)
      (decodeTrailers_written hvalid hnames hroom rest)
    simp only [append_assoc, length_append] at hdecode ⊢
    rw [hdecode]
    congr 2
    omega
  have hempty : writeChunk [] = [0x30] ++ crlf ++ crlf := rfl
  refine iff_of_false (fun hdecode => ?_) fun hall =>
    hall [] (mem_append_right _ mem_cons_self) rfl
  simp only [flatMap_append, length_append] at hmax
  have hearly := @decodeChunked_written front [] (crlf ++ (back.flatMap writeChunk ++ ([0x30] ++
    crlf ++ (trailers.flatMap writeHeader ++ crlf)) ++ rest)) options 2 hfront (by omega)
    (decodeTrailers_empty _ _)
  simp only [flatMap_append, flatMap_cons, hempty, append_assoc] at hearly hdecode
  rw [hearly] at hdecode
  have hconsumed := congrArg DecodedChunked.consumed (Except.ok.inj hdecode)
  simp only [length_append] at hconsumed
  omega

/-- Two chunks and a trailer, and the beginning of another message. -/
theorem chunked_round_trip_trailer :
    decodeChunked (ascii "2\r\nhi\r\n1\r\n!\r\n0\r\nA:  b \r\n\r\n" ++ ascii "GET") {} = .ok {
        body := ascii "hi!"
        trailers := [{ name := ascii "A", value := ascii "b" }]
        consumed := 26 } :=
  (@chunked_round_trip [ascii "hi", ascii "!"] [{ name := ascii "A", value := ascii " b " }]
    (ascii "2\r\nhi\r\n1\r\n!\r\n0\r\nA:  b \r\n\r\n") {} (ascii "GET")
    (by decide +kernel) (by decide)).mpr (by decide)

/-- Behind an empty chunk the body is cut off, and the end of it left over. -/
theorem chunked_round_trip_empty_chunk :
    ∃ out, encodeChunked [ascii "a", [], ascii "b"] [] = .ok out ∧
      decodeChunked out {} ≠
        .ok { body := ascii "ab", trailers := [], consumed := out.length } := by
  refine ⟨ascii "1\r\na\r\n0\r\n\r\n1\r\nb\r\n0\r\n\r\n", by decide +kernel, by decide +kernel⟩

end Netz.Http1
