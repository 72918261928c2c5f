/-
WebSocket messages are assembled.

The assembler holds the fragments of one message; a run without a refused frame is a sequence of
whole messages and an unfinished one, and answers each message at its last frame.
-/
import Netz.Lib.Machine
import Netz.Proofs.WebSocketText

namespace Netz.WebSocket

open Lib List

/-! ### One frame -/

/-- A message that a frame may complete: within the limit, and UTF-8 where it is text. -/
def Message.Acceptable (message : Message) (maxMessageBytes : Nat) : Prop :=
  message.payload.length ≤ maxMessageBytes ∧
    (message.opcode = .text → message.compressed = false → ValidUtf8 message.payload)

/-- A message that may go on: within the limit, and the beginning of UTF-8 where it is text. -/
def Message.Bearable (message : Message) (maxMessageBytes : Nat) : Prop :=
  message.payload.length ≤ maxMessageBytes ∧
    (message.opcode = .text → message.compressed = false →
      ∃ next, ({} : Utf8Validator).feed message.payload = (.ok (), next))

/-- A message with more behind it. -/
def Message.extend (message : Message) (more : Bytes) : Message :=
  { message with payload := message.payload ++ more }

lemma Message.extend_extend (message : Message) (first rest : Bytes) :
    (message.extend first).extend rest = message.extend (first ++ rest) := by
  unfold Message.extend
  rw [append_assoc]

lemma Message.Acceptable.bearable {message : Message} {more : Bytes} {maxMessageBytes : Nat}
    (h : (message.extend more).Acceptable maxMessageBytes) : message.Bearable maxMessageBytes := by
  obtain ⟨hlen, htext⟩ := h
  rw [Message.extend, length_append] at hlen
  refine ⟨by omega, fun hopcode hplain => ?_⟩
  obtain ⟨next, hfeed, -⟩ := (Utf8Validator.valid_iff_feed _).mp (htext hopcode hplain)
  rw [Message.extend, Utf8Validator.feed_append] at hfeed
  cases hfirst : ({} : Utf8Validator).feed message.payload with
  | mk result validator =>
    cases result with
    | error e => simp [hfirst] at hfeed
    | ok u => exact ⟨validator, rfl⟩

namespace MessageAssembler

/-- The assembler has collected the beginning of a message. -/
structure Collects (assembler : MessageAssembler) (message : Message) : Prop where
  opcode : assembler.opcode = some message.opcode
  compressed : assembler.compressed = message.compressed
  buffer : assembler.buffer = message.payload
  text : message.opcode = .text → message.compressed = false →
    ({} : Utf8Validator).feed message.payload = (.ok (), assembler.textUtf8)

variable {assembler : MessageAssembler}

lemma feed_control {frame : Frame}
    (h : frame.header.opcode.isControl = true) : assembler.feed frame = (.ok none, assembler) := by
  simp [h, feed]

variable {assembler : MessageAssembler} {frame : Frame} {soFar : Message}

lemma feed_first (hdata : ¬frame.header.opcode.isControl = true)
    (hfirst : frame.header.opcode ≠ .continuation) (hidle : assembler.opcode = none) :
    ∃ opened : MessageAssembler, assembler.feed frame = opened.takePayload frame ∧
      opened.maxMessageBytes = assembler.maxMessageBytes ∧
      opened.Collects { opcode := frame.header.opcode, payload := []
                        compressed := frame.header.rsv1 } := by
  refine ⟨{ assembler with
    opcode := some frame.header.opcode, compressed := frame.header.rsv1, textUtf8 := {}
    buffer := [] }, ?_, rfl, rfl, rfl, rfl, fun _ _ => rfl⟩
  simp [hdata, hfirst, (not_not.mpr hidle), feed, openFrame]

lemma feed_continuation (hcont : frame.header.opcode = .continuation)
    (hbusy : assembler.opcode ≠ none) (hrsv : frame.header.rsv1 = false) :
    assembler.feed frame = assembler.takePayload frame := by
  unfold feed openFrame
  rw [hcont, if_neg (by decide), if_neg (not_not.mpr rfl), if_neg hbusy,
    if_neg (by rw [hrsv]; exact Bool.false_ne_true)]

/-- A data frame in the middle of a message is refused, and a continuation frame outside, or with
the bit of the first frame. -/
theorem feed_refused {frame : Frame} (hdata : ¬frame.header.opcode.isControl = true)
    (h : (frame.header.opcode ≠ .continuation ∧ assembler.opcode ≠ none) ∨
      (frame.header.opcode = .continuation ∧
        (assembler.opcode = none ∨ frame.header.rsv1 = true))) :
    ∃ e, (assembler.feed frame).1 = .error e := by
  unfold feed openFrame
  rw [if_neg hdata]
  rcases h with ⟨hfirst, hbusy⟩ | ⟨hcont, hidle⟩
  · simp [hfirst, hbusy]
  rw [if_neg (not_not.mpr hcont)]
  by_cases hnone : assembler.opcode = none
  · simp [hnone]
  · simp [hnone, (hidle.resolve_left hnone)]

lemma Collects.feedText (h : assembler.Collects soFar) (frame : Frame) :
    ({ assembler with buffer := assembler.buffer ++ frame.payload }).feedText frame =
      if soFar.opcode = .text ∧ soFar.compressed = false then
        match ({} : Utf8Validator).feed (soFar.extend frame.payload).payload with
        | (.error e, textUtf8) => (.error e, { assembler with
            buffer := assembler.buffer ++ frame.payload, textUtf8 := textUtf8 })
        | (.ok (), textUtf8) =>
          (if frame.header.fin then textUtf8.finish else .ok (), { assembler with
            buffer := assembler.buffer ++ frame.payload, textUtf8 := textUtf8 })
      else (.ok (), { assembler with buffer := assembler.buffer ++ frame.payload }) := by
  unfold MessageAssembler.feedText
  by_cases hplain : soFar.opcode = .text ∧ soFar.compressed = false
  · have hfeed : ({} : Utf8Validator).feed (soFar.extend frame.payload).payload =
        assembler.textUtf8.feed frame.payload := by
      unfold Message.extend
      rw [Utf8Validator.feed_append, h.text hplain.1 hplain.2]
    rewrite [if_pos hplain, hfeed, if_pos]
    · cases assembler.textUtf8.feed frame.payload with
      | mk result next => cases result <;> rfl
    · simp [h.opcode, h.compressed, hplain.1, hplain.2]
  · simp [hplain, h.opcode, h.compressed]

lemma Collects.takePayload_large (h : assembler.Collects soFar)
    (hlarge : ¬(soFar.extend frame.payload).payload.length ≤ assembler.maxMessageBytes) :
    ∃ e, (assembler.takePayload frame).1 = .error e := by
  unfold MessageAssembler.takePayload
  rw [h.buffer, if_pos]
  · exact ⟨_, rfl⟩
  · rw [Message.extend, length_append] at hlarge
    omega

lemma Collects.takePayload_fits (h : assembler.Collects soFar)
    (hfits : (soFar.extend frame.payload).payload.length ≤ assembler.maxMessageBytes) :
    assembler.takePayload frame =
      ({ assembler with buffer := assembler.buffer ++ frame.payload }).closeFrame frame := by
  have hmax := assembler.fits
  rw [Message.extend, length_append] at hfits
  unfold MessageAssembler.takePayload
  rw [if_neg]
  rw [h.buffer]
  omega

/-- **A fragment goes on with the message, as far as the message may go on.** -/
theorem Collects.more {soFar : Message}
    (h : assembler.Collects soFar) {frame : Frame} (hfin : frame.header.fin = false) :
    ((soFar.extend frame.payload).Bearable assembler.maxMessageBytes →
      ∃ next : MessageAssembler, assembler.takePayload frame = (.ok none, next) ∧
        next.maxMessageBytes = assembler.maxMessageBytes ∧
        next.Collects (soFar.extend frame.payload)) ∧
    (¬(soFar.extend frame.payload).Bearable assembler.maxMessageBytes →
      ∃ e, (assembler.takePayload frame).1 = .error e) := by
  by_cases hfits : (soFar.extend frame.payload).payload.length ≤ assembler.maxMessageBytes
  · rw [h.takePayload_fits hfits]
    unfold closeFrame
    rw [h.feedText]
    by_cases hplain : soFar.opcode = .text ∧ soFar.compressed = false
    · rw [if_pos hplain]
      cases hfeed : ({} : Utf8Validator).feed (soFar.extend frame.payload).payload with
      | mk result textUtf8 =>
        cases result with
        | error e =>
          refine ⟨fun hbear => ?_, fun _ => ⟨e, rfl⟩⟩
          obtain ⟨next, hnext⟩ := hbear.2 hplain.1 hplain.2
          simp [hfeed] at hnext
        | ok u =>
          rw [hfin]
          refine ⟨fun _ => ⟨_, rfl, rfl, h.opcode, h.compressed, ?_, fun _ _ => hfeed⟩,
            fun hbear => ?_⟩
          · exact congrArg (· ++ frame.payload) h.buffer
          · exact absurd ⟨hfits, fun _ _ => ⟨textUtf8, hfeed⟩⟩ hbear
    rw [if_neg hplain, hfin]
    refine ⟨fun _ => ⟨_, rfl, rfl, h.opcode, h.compressed, ?_, ?_⟩, fun hbear => ?_⟩
    · exact congrArg (· ++ frame.payload) h.buffer
    · exact fun htext hcompressed => absurd ⟨htext, hcompressed⟩ hplain
    · exact absurd ⟨hfits, fun htext hcompressed => absurd ⟨htext, hcompressed⟩ hplain⟩ hbear
  · exact ⟨fun hbear => absurd hbear.1 hfits, fun _ => h.takePayload_large hfits⟩

/-- **The last fragment answers the message, where it is acceptable.** -/
theorem Collects.last {soFar : Message}
    (h : assembler.Collects soFar) {frame : Frame} (hfin : frame.header.fin = true) :
    ((soFar.extend frame.payload).Acceptable assembler.maxMessageBytes → ∃ next : MessageAssembler,
        assembler.takePayload frame = (.ok (some (soFar.extend frame.payload)), next) ∧
        next.maxMessageBytes = assembler.maxMessageBytes ∧ next.opcode = none) ∧
    (¬(soFar.extend frame.payload).Acceptable assembler.maxMessageBytes →
      ∃ e, (assembler.takePayload frame).1 = .error e) := by
  have hmsg : ({ opcode := soFar.opcode, payload := assembler.buffer ++ frame.payload
                 compressed := assembler.compressed } : Message) = soFar.extend frame.payload := by
    unfold Message.extend
    rw [h.buffer, h.compressed]
  by_cases hfits : (soFar.extend frame.payload).payload.length ≤ assembler.maxMessageBytes
  · rw [h.takePayload_fits hfits]
    unfold closeFrame
    rw [h.feedText]
    by_cases hplain : soFar.opcode = .text ∧ soFar.compressed = false
    · rw [if_pos hplain]
      have hvalid := Utf8Validator.valid_iff_feed (soFar.extend frame.payload).payload
      cases hfeed : ({} : Utf8Validator).feed (soFar.extend frame.payload).payload with
      | mk result textUtf8 =>
        rw [hfeed] at hvalid
        cases result with
        | error e =>
          refine ⟨fun hacc => ?_, fun _ => ⟨e, rfl⟩⟩
          obtain ⟨next, hnext, -⟩ := hvalid.mp (hacc.2 hplain.1 hplain.2)
          cases hnext
        | ok u =>
          dsimp only
          rw [if_pos hfin]
          unfold Utf8Validator.finish
          by_cases hrest : textUtf8.remaining ≠ 0
          · rw [if_pos hrest]
            refine ⟨fun hacc => ?_, fun _ => ⟨_, rfl⟩⟩
            obtain ⟨next, hnext, hzero⟩ := hvalid.mp (hacc.2 hplain.1 hplain.2)
            cases hnext
            exact absurd hzero hrest
          rw [if_neg hrest, hfin, h.opcode]
          refine ⟨fun _ => ?_, fun hacc => ?_⟩
          · simp [← hmsg]
          · exact absurd ⟨hfits, fun _ _ => hvalid.mpr ⟨_, rfl, not_not.mp hrest⟩⟩ hacc
    rw [if_neg hplain, hfin, h.opcode]
    refine ⟨fun _ => ?_, fun hacc => ?_⟩
    · simp [← hmsg]
    · exact absurd ⟨hfits, fun htext hcompressed => absurd ⟨htext, hcompressed⟩ hplain⟩ hacc
  · exact ⟨fun hacc => absurd hacc.1 hfits, fun _ => h.takePayload_large hfits⟩

end MessageAssembler

/-! ### Fragments -/

/-- Frames that complete a message which is under way, and the payload they bring. -/
inductive Continues : Bytes → List Frame → Prop where
  | control {frame : Frame} {payload : Bytes} {frames : List Frame}
      (hcontrol : frame.header.opcode.isControl = true) (h : Continues payload frames) :
      Continues payload (frame :: frames)
  | last {frame : Frame} (hopcode : frame.header.opcode = .continuation)
      (hrsv : frame.header.rsv1 = false) (hfin : frame.header.fin = true) :
      Continues frame.payload [frame]
  | more {frame : Frame} {payload : Bytes} {frames : List Frame}
      (hopcode : frame.header.opcode = .continuation) (hrsv : frame.header.rsv1 = false)
      (hfin : frame.header.fin = false) (h : Continues payload frames) :
      Continues (frame.payload ++ payload) (frame :: frames)

/-- A frame that begins a message. -/
def Frame.IsFirst (frame : Frame) : Prop :=
  ¬frame.header.opcode.isControl = true ∧ frame.header.opcode ≠ .continuation

/-- The frames of a message, up to its last fragment: a data frame and its continuations, with
control frames anywhere. -/
inductive Fragments : Message → List Frame → Prop where
  | control {frame : Frame} {message : Message} {frames : List Frame}
      (hcontrol : frame.header.opcode.isControl = true) (h : Fragments message frames) :
      Fragments message (frame :: frames)
  | single {frame : Frame} (hfirst : frame.IsFirst) (hfin : frame.header.fin = true) :
      Fragments { opcode := frame.header.opcode, payload := frame.payload
                  compressed := frame.header.rsv1 } [frame]
  | first {frame : Frame} {payload : Bytes} {frames : List Frame} (hfirst : frame.IsFirst)
      (hfin : frame.header.fin = false) (h : Continues payload frames) :
      Fragments { opcode := frame.header.opcode, payload := frame.payload ++ payload
                  compressed := frame.header.rsv1 } (frame :: frames)

variable {frames : List Frame}

lemma Continues.ne_nil {payload : Bytes} (h : Continues payload frames) : frames ≠ [] := by
  cases h <;> exact cons_ne_nil _ _

lemma Fragments.ne_nil {message : Message} (h : Fragments message frames) : frames ≠ [] := by
  cases h <;> exact cons_ne_nil _ _

/-- A frame that a message under way may have before its last fragment. -/
def Frame.IsOpen (frame : Frame) : Prop :=
  frame.header.opcode.isControl = true ∨
    (frame.header.opcode = .continuation ∧ frame.header.rsv1 = false ∧ frame.header.fin = false)

/-- The frames of a message that is not complete, or control frames alone. -/
inductive Unfinished : List Frame → Prop where
  | nil : Unfinished []
  | control {frame : Frame} {frames : List Frame}
      (hcontrol : frame.header.opcode.isControl = true) (h : Unfinished frames) :
      Unfinished (frame :: frames)
  | first {frame : Frame} {frames : List Frame} (hfirst : frame.IsFirst)
      (hfin : frame.header.fin = false) (h : ∀ other ∈ frames, other.IsOpen) :
      Unfinished (frame :: frames)

lemma Frame.IsOpen.notLast {frame : Frame} (h : frame.IsOpen) :
    frame.header.opcode.isControl = true ∨ frame.header.fin = false := by
  rcases h with hctl | ⟨-, -, hfin⟩
  · exact .inl hctl
  · exact .inr hfin

lemma Unfinished.notLast (h : Unfinished frames) :
    ∀ frame ∈ frames, frame.header.opcode.isControl = true ∨ frame.header.fin = false := by
  induction h with
  | nil => exact fun frame hmem => nomatch hmem
  | control hctl _ ih =>
    intro other hother
    rcases mem_cons.mp hother with rfl | hrest
    · exact .inl hctl
    · exact ih other hrest
  | first _ hfin hopen =>
    intro other hother
    rcases mem_cons.mp hother with rfl | hrest
    · exact .inr hfin
    · exact Frame.IsOpen.notLast (hopen other hrest)

/-! ### Runs -/

namespace MessageAssembler

/-- The answers to the frames of a message: itself at the last one, and nothing before. -/
def answersFor (message : Message) (frames : List Frame) : List (Except Error (Option Message)) :=
  replicate (frames.length - 1) (.ok none) ++ [.ok (some message)]

/-- The frames are answered with nothing up to one that is refused. -/
inductive Refused : MessageAssembler → List Frame → Prop where
  | here {assembler : MessageAssembler} {frame : Frame} {rest : List Frame} {e : Error}
      (h : (assembler.feed frame).1 = .error e) : Refused assembler (frame :: rest)
  | later {assembler next : MessageAssembler} {frame : Frame} {rest : List Frame}
      (hnone : assembler.feed frame = (.ok none, next)) (h : Refused next rest) :
      Refused assembler (frame :: rest)

/-- The frames of a message are answered as they should be, and none is under way then. -/
def Assembles (assembler : MessageAssembler) (message : Message) (frames : List Frame) : Prop :=
  answers feed assembler frames = answersFor message frames ∧
    (exec feed assembler frames).opcode = none ∧
    (exec feed assembler frames).maxMessageBytes = assembler.maxMessageBytes

variable {assembler : MessageAssembler} {message soFar : Message} {frame : Frame}
  {rest frames : List Frame}

lemma Assembles.later {next : MessageAssembler} (hnone : assembler.feed frame = (.ok none, next))
    (hrest : rest ≠ []) (hmax : next.maxMessageBytes = assembler.maxMessageBytes)
    (h : next.Assembles message rest) : assembler.Assembles message (frame :: rest) := by
  obtain ⟨hanswers, hidle, hkept⟩ := h
  unfold Assembles answersFor
  rw [answers_cons, exec_cons, hnone]
  refine ⟨?_, hidle, hkept.trans hmax⟩
  have hpos := length_pos_iff.mpr hrest
  obtain ⟨n, hn⟩ : ∃ n, rest.length = n + 1 := ⟨rest.length - 1, by omega⟩
  rw [hanswers, answersFor, length_cons, Nat.add_sub_cancel, hn, Nat.add_sub_cancel,
    replicate_succ, cons_append]

lemma Collects.busy (h : assembler.Collects soFar) : assembler.opcode ≠ none := by
  rw [h.opcode]
  exact nofun

lemma Collects.continues (h : assembler.Collects soFar) {payload : Bytes}
    (hframes : Continues payload frames) :
    ((soFar.extend payload).Acceptable assembler.maxMessageBytes →
      assembler.Assembles (soFar.extend payload) frames) ∧
    (¬(soFar.extend payload).Acceptable assembler.maxMessageBytes → assembler.Refused frames) := by
  induction hframes generalizing assembler soFar with
  | control hctl hrest ih =>
    have hfeed := @feed_control assembler _ hctl
    obtain ⟨hok, hbad⟩ := ih h
    exact ⟨fun hacc => (hok hacc).later hfeed (hrest.ne_nil) rfl,
      fun hacc => .later hfeed (hbad hacc)⟩
  | @last frame hopcode hrsv hfin =>
    have hfeed := feed_continuation hopcode h.busy hrsv
    obtain ⟨hok, hbad⟩ := h.last hfin
    refine ⟨fun hacc => ?_, fun hacc => ?_⟩
    · obtain ⟨next, hnext, hmax, hidle⟩ := hok hacc
      unfold Assembles
      rw [answers_cons, exec_cons, hfeed, hnext]
      exact ⟨rfl, hidle, hmax⟩
    · obtain ⟨e, he⟩ := hbad hacc
      exact .here (e := e) (by rw [hfeed]; exact he)
  | @more frame payload frames hopcode hrsv hfin hrest ih =>
    have hfeed := feed_continuation hopcode h.busy hrsv
    obtain ⟨hok, hbad⟩ := h.more hfin
    rw [← Message.extend_extend]
    by_cases hbear : (soFar.extend frame.payload).Bearable assembler.maxMessageBytes
    · obtain ⟨next, hnext, hmax, hcoll⟩ := hok hbear
      rw [← hfeed] at hnext
      obtain ⟨hok', hbad'⟩ := ih hcoll
      rw [hmax] at hok' hbad'
      exact ⟨fun hacc => (hok' hacc).later hnext (hrest.ne_nil) hmax,
        fun hacc => .later hnext (hbad' hacc)⟩
    refine ⟨fun hacc => absurd hacc.bearable hbear, fun _ => ?_⟩
    obtain ⟨e, he⟩ := hbad hbear
    exact .here (e := e) (by rw [hfeed]; exact he)

/-- **The frames of a message are assembled where the message is acceptable, and one of them is
refused where it is not.** -/
theorem fragments_assembled (hidle : assembler.opcode = none) (h : Fragments message frames) :
    (message.Acceptable assembler.maxMessageBytes → assembler.Assembles message frames) ∧
    (¬message.Acceptable assembler.maxMessageBytes → assembler.Refused frames) := by
  induction h with
  | control hctl hrest ih =>
    have hfeed := @feed_control assembler _ hctl
    exact ⟨fun hacc => (ih.1 hacc).later hfeed (hrest.ne_nil) rfl,
      fun hacc => .later hfeed (ih.2 hacc)⟩
  | @single frame hfirst hfin =>
    obtain ⟨opened, hfeed, hmax, hcoll⟩ := feed_first hfirst.1 hfirst.2 hidle
    obtain ⟨hok, hbad⟩ := hcoll.last hfin
    rw [hmax] at hok hbad
    refine ⟨fun hacc => ?_, fun hacc => ?_⟩
    · obtain ⟨next, hnext, hkept, hdone⟩ := hok hacc
      unfold Assembles
      rw [answers_cons, exec_cons, hfeed, hnext]
      exact ⟨rfl, hdone, hkept⟩
    · obtain ⟨e, he⟩ := hbad hacc
      exact .here (e := e) (by rw [hfeed]; exact he)
  | @first frame payload frames hfirst hfin hrest =>
    obtain ⟨opened, hfeed, hmax, hcoll⟩ := feed_first hfirst.1 hfirst.2 hidle
    obtain ⟨hok, hbad⟩ := hcoll.more hfin
    rw [hmax] at hok hbad
    have hpart := @Message.Acceptable.bearable (Message.extend
      { opcode := frame.header.opcode, payload := [], compressed := frame.header.rsv1 }
      frame.payload) payload assembler.maxMessageBytes
    by_cases hbear : (Message.extend
        { opcode := frame.header.opcode, payload := [], compressed := frame.header.rsv1 }
        frame.payload).Bearable assembler.maxMessageBytes
    · obtain ⟨next, hnext, hkept, hcoll⟩ := hok hbear
      rw [← hfeed] at hnext
      obtain ⟨hok', hbad'⟩ := hcoll.continues hrest
      rw [hkept] at hok' hbad'
      exact ⟨fun hacc => (hok' hacc).later hnext (hrest.ne_nil) hkept,
        fun hacc => .later hnext (hbad' hacc)⟩
    refine ⟨fun hacc => absurd (hpart hacc) hbear, fun _ => ?_⟩
    obtain ⟨e, he⟩ := hbad hbear
    exact .here (e := e) (by rw [hfeed]; exact he)

/-! ### Any order of frames -/

/-- No frame of a run is refused. -/
def Unrefused (assembler : MessageAssembler) (frames : List Frame) : Prop :=
  ∀ answer ∈ answers feed assembler frames, ∀ e, answer ≠ .error e

lemma Unrefused.tail (h : assembler.Unrefused (frame :: rest)) :
    (assembler.feed frame).2.Unrefused rest :=
  fun answer hmem => h answer (mem_cons_of_mem _ hmem)

lemma Unrefused.head (h : assembler.Unrefused (frame :: rest)) (e : Error) :
    (assembler.feed frame).1 ≠ .error e :=
  h _ mem_cons_self e

lemma Unrefused.suffix {first : List Frame} (h : assembler.Unrefused (first ++ rest)) :
    (exec feed assembler first).Unrefused rest := by
  intro answer hmem
  refine h answer ?_
  rw [answers_append]
  exact mem_append_right _ hmem

lemma Refused.not_unrefused (h : assembler.Refused frames) (rest : List Frame) :
    ¬assembler.Unrefused (frames ++ rest) := by
  induction h with
  | here he => exact fun hall => hall.head _ he
  | later hnone _ ih =>
    intro hall
    refine ih ?_
    have htail := hall.tail
    rwa [hnone] at htail

/-- A frame that does not end a message is answered with nothing, if at all. -/
theorem feed_open (h : frame.header.opcode.isControl = true ∨ frame.header.fin = false)
    {answer : Option Message} (hfeed : (assembler.feed frame).1 = .ok answer) : answer = none := by
  by_cases hctl : frame.header.opcode.isControl = true
  · rw [feed_control hctl] at hfeed
    cases hfeed
    rfl
  have hfin := h.resolve_left hctl
  unfold feed at hfeed
  rw [if_neg hctl] at hfeed
  split at hfeed
  · cases hfeed
  unfold takePayload closeFrame at hfeed
  dsimp only at hfeed
  split at hfeed
  · cases hfeed
  rw [hfin] at hfeed
  split at hfeed
  · cases hfeed
  · cases hfeed
    rfl

lemma answers_open
    (h : ∀ frame ∈ frames, frame.header.opcode.isControl = true ∨ frame.header.fin = false)
    (hall : assembler.Unrefused frames) :
    answers feed assembler frames = replicate frames.length (.ok none) := by
  induction frames generalizing assembler with
  | nil => rfl
  | cons frame rest ih =>
    rw [answers_cons, length_cons, replicate_succ,
      ih (fun other hother => h other (mem_cons_of_mem frame hother)) hall.tail]
    cases hans : (assembler.feed frame).1 with
    | error e => exact absurd hans (hall.head e)
    | ok answer => rw [feed_open (h frame mem_cons_self) hans]

/-- Where no frame is refused a message under way is completed, or goes on. -/
theorem Collects.split (h : assembler.Collects soFar) (hall : assembler.Unrefused frames) :
    (∃ payload front back, frames = front ++ back ∧ Continues payload front) ∨
      ∀ frame ∈ frames, frame.IsOpen := by
  induction frames generalizing assembler soFar with
  | nil => exact .inr fun frame hmem => nomatch hmem
  | cons frame rest ih =>
    by_cases hctl : frame.header.opcode.isControl = true
    · have htail := hall.tail
      rw [feed_control hctl] at htail
      rcases ih h htail with ⟨payload, front, back, rfl, hfront⟩ | hopen
      · exact .inl ⟨payload, frame :: front, back, rfl, .control hctl hfront⟩
      refine .inr fun other hother => ?_
      rcases mem_cons.mp hother with rfl | hrest
      · exact .inl hctl
      · exact hopen other hrest
    have hcont : frame.header.opcode = .continuation := by
      by_contra hfirst
      obtain ⟨e, he⟩ := feed_refused hctl (.inl ⟨hfirst, h.busy⟩)
      exact hall.head e he
    have hrsv : frame.header.rsv1 = false := by
      by_contra hset
      obtain ⟨e, he⟩ := @feed_refused assembler frame hctl
        (.inr ⟨hcont, .inr (by simpa using hset)⟩)
      exact hall.head e he
    have hfeed := feed_continuation hcont h.busy hrsv
    by_cases hfin : frame.header.fin = true
    · exact .inl ⟨frame.payload, [frame], rest, rfl, .last hcont hrsv hfin⟩
    replace hfin : frame.header.fin = false := by simpa using hfin
    obtain ⟨hok, hbad⟩ := h.more hfin
    have hbear : (soFar.extend frame.payload).Bearable assembler.maxMessageBytes := by
      by_contra hbear
      obtain ⟨e, he⟩ := hbad hbear
      exact hall.head e (by rw [hfeed]; exact he)
    obtain ⟨next, hnext, -, hcoll⟩ := hok hbear
    have htail := hall.tail
    rw [hfeed, hnext] at htail
    rcases ih hcoll htail with ⟨payload, front, back, rfl, hfront⟩ | hopen
    · exact .inl ⟨_, frame :: front, back, rfl, .more hcont hrsv hfin hfront⟩
    refine .inr fun other hother => ?_
    rcases mem_cons.mp hother with rfl | hrest
    · exact .inr ⟨hcont, hrsv, hfin⟩
    · exact hopen other hrest

/-- Where no frame is refused the frames are those of a message and more, or of no whole one. -/
theorem split_fragments (hidle : assembler.opcode = none) (hall : assembler.Unrefused frames) :
    (∃ message front back, frames = front ++ back ∧ Fragments message front) ∨
      Unfinished frames := by
  induction frames generalizing assembler with
  | nil => exact .inr .nil
  | cons frame rest ih =>
    by_cases hctl : frame.header.opcode.isControl = true
    · have htail := hall.tail
      rw [feed_control hctl] at htail
      rcases ih hidle htail with ⟨message, front, back, rfl, hfront⟩ | hopen
      · exact .inl ⟨message, frame :: front, back, rfl, .control hctl hfront⟩
      · exact .inr (.control hctl hopen)
    have hfirst : frame.header.opcode ≠ .continuation := by
      intro hcont
      obtain ⟨e, he⟩ := feed_refused hctl (.inr ⟨hcont, .inl hidle⟩)
      exact hall.head e he
    by_cases hfin : frame.header.fin = true
    · exact .inl ⟨_, [frame], rest, rfl, .single ⟨hctl, hfirst⟩ hfin⟩
    replace hfin : frame.header.fin = false := by simpa using hfin
    obtain ⟨opened, hfeed, hmax, hcoll⟩ := feed_first hctl hfirst hidle
    obtain ⟨hok, hbad⟩ := hcoll.more hfin
    by_cases hbear : (Message.extend
        { opcode := frame.header.opcode, payload := [], compressed := frame.header.rsv1 }
        frame.payload).Bearable opened.maxMessageBytes
    · obtain ⟨next, hnext, -, hcoll⟩ := hok hbear
      have htail := hall.tail
      rw [hfeed, hnext] at htail
      rcases hcoll.split htail with ⟨payload, front, back, rfl, hfront⟩ | hopen
      · exact .inl ⟨_, frame :: front, back, rfl, .first ⟨hctl, hfirst⟩ hfin hfront⟩
      · exact .inr (.first ⟨hctl, hfirst⟩ hfin hopen)
    · obtain ⟨e, he⟩ := hbad hbear
      exact absurd (by rw [hfeed]; exact he) (hall.head e)

/-- Messages with their frames, one behind the other, and an unfinished one. -/
structure Sequence (maxMessageBytes : Nat) (frames : List Frame)
    (parts : List (Message × List Frame)) (rest : List Frame) : Prop where
  eq : frames = parts.flatMap (·.2) ++ rest
  fragments : ∀ part ∈ parts, Fragments part.1 part.2 ∧ part.1.Acceptable maxMessageBytes
  unfinished : Unfinished rest

lemma sequence_assembled (hidle : assembler.opcode = none) {parts : List (Message × List Frame)}
    (hparts : ∀ part ∈ parts,
      Fragments part.1 part.2 ∧ part.1.Acceptable assembler.maxMessageBytes) :
    answers feed assembler (parts.flatMap (·.2)) =
        parts.flatMap (fun part => answersFor part.1 part.2) ∧
      (exec feed assembler (parts.flatMap (·.2))).opcode = none ∧
      (exec feed assembler (parts.flatMap (·.2))).maxMessageBytes = assembler.maxMessageBytes := by
  induction parts generalizing assembler with
  | nil => exact ⟨rfl, hidle, rfl⟩
  | cons part parts ih =>
    obtain ⟨hfragments, hacc⟩ := hparts part mem_cons_self
    obtain ⟨hanswers, hnone, hmax⟩ := (fragments_assembled hidle hfragments).1 hacc
    obtain ⟨hrest, hdone, hkept⟩ := ih hnone (by
      rw [hmax]
      exact fun other hother => hparts other (mem_cons_of_mem part hother))
    rw [flatMap_cons, answers_append, exec_append, hanswers, hrest]
    exact ⟨rfl, hdone, hkept.trans hmax⟩

/-- **A run without a refused frame is a sequence of messages.** -/
theorem sequence_of_unrefused (hidle : assembler.opcode = none)
    (hall : assembler.Unrefused frames) :
    ∃ parts rest, Sequence assembler.maxMessageBytes frames parts rest := by
  induction hlen : frames.length using Nat.strongRecOn generalizing assembler frames with
  | _ n ih =>
    rcases split_fragments hidle hall with ⟨message, front, back, rfl, hfront⟩ | hopen
    · obtain ⟨hok, hbad⟩ := fragments_assembled hidle hfront
      have hacc : message.Acceptable assembler.maxMessageBytes := by
        by_contra hacc
        exact (hbad hacc).not_unrefused back hall
      obtain ⟨-, hnone, hmax⟩ := hok hacc
      have hpos := length_pos_iff.mpr hfront.ne_nil
      rw [length_append] at hlen
      obtain ⟨parts, rest, hseq⟩ := ih back.length (by omega) hnone hall.suffix rfl
      rw [hmax] at hseq
      refine ⟨(message, front) :: parts, rest, ?_, ?_, hseq.unfinished⟩
      · rw [flatMap_cons, append_assoc, ← hseq.eq]
      intro part hpart
      rcases mem_cons.mp hpart with rfl | hpart
      · exact ⟨hfront, hacc⟩
      · exact hseq.fragments part hpart
    · exact ⟨[], frames, rfl, (fun part hpart => nomatch hpart), hopen⟩

/--
**Messages are assembled**, from any assembler without a message under way.  The frames of
acceptable messages, one message after the other, are answered with each message at its last
fragment and with nothing else; the frames of one message are answered so exactly where it is
acceptable, and otherwise one of them is refused before anything is answered; frames in any other
order are not taken; and the validator accepts UTF-8 in any pieces.
-/
theorem messages_assembled {assembler : MessageAssembler} (hidle : assembler.opcode = none) :
    (∀ (parts : List (Message × List Frame)) (controls : List Frame),
      (∀ part ∈ parts, Fragments part.1 part.2 ∧
        part.1.Acceptable assembler.maxMessageBytes) →
      (∀ frame ∈ controls, frame.header.opcode.isControl = true) →
      answers feed assembler (parts.flatMap (·.2) ++ controls) =
        parts.flatMap (fun part => answersFor part.1 part.2) ++
          replicate controls.length (.ok none)) ∧
    (∀ (message : Message) (frames : List Frame), Fragments message frames →
      (answers feed assembler frames = answersFor message frames ↔
        message.Acceptable assembler.maxMessageBytes) ∧
      (¬message.Acceptable assembler.maxMessageBytes → assembler.Refused frames)) ∧
    (∀ frames : List Frame, assembler.Unrefused frames →
      ∃ parts rest, Sequence assembler.maxMessageBytes frames parts rest ∧
        answers feed assembler frames = parts.flatMap (fun part => answersFor part.1 part.2) ++
            replicate rest.length (.ok none)) ∧
    ∀ chunks : List Bytes, ValidUtf8 chunks.flatten ↔
      ∃ next, ({} : Utf8Validator).feedAll chunks = (.ok (), next) ∧ next.finish = .ok () := by
  refine ⟨?_, ?_, ?_, Utf8Validator.valid_iff_feedAll⟩
  · intro parts controls hparts hcontrols
    obtain ⟨hanswers, -, -⟩ := sequence_assembled hidle hparts
    rw [answers_append]
    congr 1
    generalize exec feed assembler (parts.flatMap (·.2)) = state
    induction controls with
    | nil => rfl
    | cons frame rest ih =>
      rw [answers_cons, feed_control (hcontrols frame mem_cons_self), length_cons]
      congr 1
      exact ih fun other hother => hcontrols other (mem_cons_of_mem frame hother)
  · intro message frames hframes
    obtain ⟨hok, hbad⟩ := fragments_assembled hidle hframes
    refine ⟨⟨fun hanswers => ?_, fun haccept => (hok haccept).1⟩, hbad⟩
    by_contra haccept
    have hrefused := (hbad haccept).not_unrefused []
    rw [append_nil] at hrefused
    refine hrefused fun answer hmem e he => ?_
    rw [hanswers, answersFor, mem_append] at hmem
    rcases hmem with hnone | hsome
    · simp [eq_of_mem_replicate hnone] at he
    · simp [mem_singleton.mp hsome] at he
  intro frames hall
  obtain ⟨parts, rest, hsequence⟩ := sequence_of_unrefused hidle hall
  refine ⟨parts, rest, hsequence, ?_⟩
  obtain ⟨hanswers, -, -⟩ := sequence_assembled hidle hsequence.fragments
  rw [hsequence.eq] at hall
  rw [hsequence.eq, answers_append, hanswers, answers_open hsequence.unfinished.notLast hall.suffix]

/-- The header of a frame without a mask. -/
def plainHeader (opcode : Opcode) (fin : Bool) (payloadLen : Nat) : FrameHeader where
  fin := fin
  opcode := opcode
  masked := false
  payloadLen := payloadLen
  maskKey := none
  headerLen := 2

/-- A character of two bytes in two frames, with a ping in between. -/
theorem messages_assembled_split :
    answers feed {} [⟨plainHeader .text false 1, [0xc3], 3⟩, ⟨plainHeader .ping true 0, [], 2⟩,
          ⟨plainHeader .continuation true 1, [0xa9], 3⟩] =
      [.ok none, .ok none, .ok (some { opcode := .text, payload := [0xc3, 0xa9] })] :=
  (((@messages_assembled {} rfl).2.1 { opcode := .text, payload := [0xc3, 0xa9] } _
    (@Fragments.first ⟨plainHeader .text false 1, [0xc3], 3⟩ [0xa9] _ ⟨by decide, by decide⟩ rfl
      (.control rfl (@Continues.last ⟨plainHeader .continuation true 1, [0xa9], 3⟩ rfl rfl
        rfl)))).1).mpr
      ⟨by decide, fun _ _ => ⟨['é'], by decide⟩⟩

end MessageAssembler

end Netz.WebSocket
