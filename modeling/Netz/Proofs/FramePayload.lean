/-
The two paths over a decrypted payload.

`PayloadFrames payload frames` says that the payload is the well-formed frames `frames`, one
after the other.  The owning path returns exactly those, if there are any and not too many;
the service path wants in addition that the ranges of all their ACK frames fit the buffer of
the connection, which a peer knows nothing about.
-/
import Netz.Proofs.FrameWellFormed

namespace Netz.Quic

open Lib Lib.Reader FrameType List

/-! ### One frame, with and without an allocator -/

variable {input rest bytes : Bytes} {hasEcn : Bool} {ack : AckFrame} {storageLen : Nat}
  {parsed : ParsedFrame}

lemma check_run_iff {α : Type} {result : Except Error α} {a : α} :
    Cursor.check result input = .ok (a, rest) ↔ result = .ok a ∧ rest = input := by
  cases result with
  | error e =>
    constructor
    · intro h
      cases h
    · simp
  | ok b =>
    constructor
    · intro h
      cases h
      exact ⟨rfl, rfl⟩
    rintro ⟨h, rfl⟩
    cases h
    rfl

lemma parseAckFrameWith_storage {storage storage' : Nat → Except Error Unit}
    (h : parseAckFrameWith storage hasEcn input = .ok (ack, rest))
    (hroom : storage' ack.ranges.length = .ok ()) :
    parseAckFrameWith storage' hasEcn input = .ok (ack, rest) := by
  obtain ⟨largest, m₁, h₁, h⟩ := bind_ok_iff.mp h
  obtain ⟨delay, m₂, h₂, h⟩ := bind_ok_iff.mp h
  obtain ⟨count, m₃, h₃, h⟩ := bind_ok_iff.mp h
  obtain ⟨first, m₄, h₄, h⟩ := bind_ok_iff.mp h
  obtain ⟨remaining, m₅, h₅, h⟩ := bind_ok_iff.mp h
  obtain ⟨_, m₆, h₆, h⟩ := bind_ok_iff.mp h
  obtain ⟨_, m₇, h₇, h⟩ := bind_ok_iff.mp h
  obtain ⟨-, hm₇⟩ := check_run_iff.mp h₇
  have hcount : ack.ranges.length = count := by
    obtain ⟨ranges, m₈, h₈, h⟩ := bind_ok_iff.mp h
    obtain ⟨ecn, m₉, -, h⟩ := bind_ok_iff.mp h
    obtain ⟨_, m₁₀, -, h⟩ := bind_ok_iff.mp h
    cases h
    exact (yields_parseAckRange.times count _ _ _ h₈).2.1
  rw [hcount] at hroom
  exact bind_ok_iff.mpr ⟨largest, m₁, h₁, bind_ok_iff.mpr ⟨delay, m₂, h₂,
    bind_ok_iff.mpr ⟨count, m₃, h₃, bind_ok_iff.mpr ⟨first, m₄, h₄,
      bind_ok_iff.mpr ⟨remaining, m₅, h₅, bind_ok_iff.mpr ⟨_, m₆, h₆,
        bind_ok_iff.mpr ⟨(), m₇, check_run_iff.mpr ⟨hroom, hm₇⟩, h⟩⟩⟩⟩⟩⟩⟩

lemma borrowedRanges_ok_iff {count : Nat} :
    borrowedRanges storageLen count = .ok () ↔ count ≤ storageLen := by simp [borrowedRanges]

lemma parseAckFrameInto_ok_iff :
    parseAckFrameInto hasEcn storageLen input = .ok (ack, rest) ↔
      parseAckFrame true hasEcn input = .ok (ack, rest) ∧ ack.ranges.length ≤ storageLen := by
  constructor
  · intro h
    refine ⟨parseAckFrameWith_storage h ?_, ?_⟩
    · simp [allocatedRanges]
    · exact borrowedRanges_ok_iff.mp (yields_parseAckFrameWith _ hasEcn _ _ _ h).2.2
  · rintro ⟨h, hroom⟩
    exact parseAckFrameWith_storage h (borrowedRanges_ok_iff.mpr hroom)

/-- The allocator is for ACK frames alone. -/
theorem parseFrameAfterType_allocator {frameType : Nat}
    (hack : ¬ (frameType = FrameType.ack.toInt ∨ frameType = FrameType.ackEcn.toInt)) :
    parseFrameAfterType false frameType = parseFrameAfterType true frameType := by
  simp [hack, parseFrameAfterType]

/-- **Parsing into storage gives the same frame, if its ranges fit.** -/
theorem frameInto_ok_iff {frame : Frame} :
    frameInto storageLen bytes = .ok (frame, rest) ↔
      frameOwned true bytes = .ok (frame, rest) ∧ frame.ackRangeCount ≤ storageLen := by
  unfold frameInto frameOwned
  rw [bind_ok_iff, bind_ok_iff]
  have hstep : ∀ value mid, (if value = padding.toInt then parsePadding
        else if value = ack.toInt ∨ value = ackEcn.toInt then do
          return .ack (← parseAckFrameInto (value == ackEcn.toInt) storageLen)
        else parseFrameAfterType false value) mid = .ok (frame, rest) ↔
      (if value = padding.toInt then parsePadding
        else parseFrameAfterType true value) mid = .ok (frame, rest) ∧
        frame.ackRangeCount ≤ storageLen := by
    intro value mid
    have hplain : frame.Plain → frame.ackRangeCount ≤ storageLen := by
      intro h
      simp [h.2]
    by_cases hpad : value = padding.toInt
    · rw [if_pos hpad, if_pos hpad]
      exact ⟨fun h => ⟨h, hplain (yields_parsePadding mid frame rest h).2⟩, fun h => h.1⟩
    rw [if_neg hpad, if_neg hpad]
    by_cases hack : value = ack.toInt ∨ value = ackEcn.toInt
    · rw [if_pos hack, parseFrameAfterType_ack hack, bind_ok_iff, bind_ok_iff]
      constructor
      · rintro ⟨ack, last, hparse, h⟩
        cases h
        obtain ⟨hparse, hroom⟩ := parseAckFrameInto_ok_iff.mp hparse
        exact ⟨⟨ack, rest, hparse, rfl⟩, hroom⟩
      rintro ⟨⟨ack, last, hparse, h⟩, hroom⟩
      cases h
      exact ⟨ack, rest, parseAckFrameInto_ok_iff.mpr ⟨hparse, hroom⟩, rfl⟩
    rw [if_neg hack, parseFrameAfterType_allocator hack]
    exact ⟨fun h => ⟨h, hplain (yields_parseFrameAfterType true hack mid frame rest h).2⟩,
      fun h => h.1⟩
  constructor
  · rintro ⟨value, mid, htype, h⟩
    obtain ⟨h, hroom⟩ := (hstep value mid).mp h
    exact ⟨⟨value, mid, htype, h⟩, hroom⟩
  · rintro ⟨⟨value, mid, htype, h⟩, hroom⟩
    exact ⟨value, mid, htype, (hstep value mid).mpr ⟨h, hroom⟩⟩

lemma parseWith_ok_iff {parser : Cursor Frame} :
    parseWith parser bytes = .ok parsed ↔ ∃ rest, parser bytes = .ok (parsed.frame, rest) ∧
        parsed.consumed = bytes.length - rest.length := by
  unfold parseWith
  cases parser bytes with
  | error e => simp
  | ok p =>
    constructor
    · intro h
      cases h
      exact ⟨p.2, rfl, rfl⟩
    rintro ⟨rest, h, hused⟩
    cases h
    simp [← hused]

lemma parseFrameInto_ok_iff :
    parseFrameInto bytes storageLen = .ok parsed ↔
      parseFrameOwned bytes = .ok parsed ∧ parsed.frame.ackRangeCount ≤ storageLen := by
  unfold parseFrameInto parseFrameOwned
  rw [parseWith_ok_iff, parseWith_ok_iff]
  constructor
  · rintro ⟨rest, h, hused⟩
    obtain ⟨h, hroom⟩ := frameInto_ok_iff.mp h
    exact ⟨⟨rest, h, hused⟩, hroom⟩
  · rintro ⟨⟨rest, h, hused⟩, hroom⟩
    exact ⟨rest, frameInto_ok_iff.mpr ⟨h, hroom⟩, hused⟩

/-! ### Whole payloads -/

/-- The payload is these well-formed frames, one after the other. -/
inductive PayloadFrames : Bytes → List Frame → Prop
  | nil : PayloadFrames [] []
  | cons {b : UInt8} {rest : Bytes} {parsed : ParsedFrame} {frames : List Frame}
      (hparse : parseFrameOwned (b :: rest) = .ok parsed)
      (htail : PayloadFrames ((b :: rest).drop parsed.consumed) frames) :
      PayloadFrames (b :: rest) (parsed.frame :: frames)

variable {frames : List Frame}

lemma PayloadFrames.of_cons {b : UInt8} (h : PayloadFrames (b :: rest) frames) :
    ∃ parsed tail, frames = parsed.frame :: tail ∧ parseFrameOwned (b :: rest) = .ok parsed ∧
      PayloadFrames ((b :: rest).drop parsed.consumed) tail := by
  cases h with
  | cons hparse htail => exact ⟨_, _, rfl, hparse, htail⟩

lemma PayloadFrames.length_pos_iff {payload : Bytes}
    (h : PayloadFrames payload frames) : 0 < frames.length ↔ payload.length ≠ 0 := by
  cases h with
  | nil | cons => simp

/-- The entries of the range buffer that a list of frames needs. -/
def ackRangeTotal (frames : List Frame) : Nat := (frames.map Frame.ackRangeCount).sum

/-- The loop of the owning path returns the frames of the payload, if they are few enough. -/
theorem parsePacketFramesLoop_ok_iff :
    ∀ (room : Nat) (bytes : Bytes) (frames : List Frame),
      parsePacketFramesLoop .oneRtt room bytes = .ok frames ↔
        PayloadFrames bytes frames ∧ frames.length ≤ room := by
  intro room
  induction room with
  | zero =>
    intro bytes frames
    cases bytes with
    | nil =>
      constructor
      · intro h
        cases h
        exact ⟨.nil, le_rfl⟩
      · rintro ⟨⟨⟩, -⟩
        rfl
    | cons b rest =>
      constructor
      · intro h
        cases h
      · rintro ⟨⟨⟩, hlen⟩
        cases hlen
  | succ room ih =>
    intro bytes frames
    cases bytes with
    | nil =>
      constructor
      · intro h
        cases h
        exact ⟨.nil, Nat.zero_le _⟩
      · rintro ⟨⟨⟩, -⟩
        rfl
    | cons b rest =>
      constructor
      · intro h
        obtain ⟨parsed, hparse, h⟩ := bind_eq_ok h
        obtain ⟨_, -, h⟩ := bind_eq_ok h
        obtain ⟨tail, htail, h⟩ := bind_eq_ok h
        cases h
        obtain ⟨htail, hlen⟩ := (ih _ _).mp htail
        exact ⟨.cons hparse htail, Nat.succ_le_succ hlen⟩
      rintro ⟨hframes, hlen⟩
      obtain ⟨parsed, tail, rfl, hparse, htail⟩ := hframes.of_cons
      unfold parsePacketFramesLoop
      rw [hparse]
      show (parsePacketFramesLoop .oneRtt room _ >>= fun _ => _) = _
      rw [(ih _ _).mpr ⟨htail, Nat.le_of_succ_le_succ hlen⟩]
      rfl

/-- The loop of the service path also needs room for their ranges. -/
theorem parseServiceLoop_ok_iff (buffers : ReceiveBuffers) :
    ∀ (room start : Nat) (bytes : Bytes) (frames : List Frame), start ≤ buffers.ackRangeCapacity →
      (buffers.parseServiceLoop room start bytes = .ok frames ↔
        PayloadFrames bytes frames ∧ frames.length ≤ room ∧
          start + ackRangeTotal frames ≤ buffers.ackRangeCapacity) := by
  intro room
  induction room with
  | zero =>
    intro start bytes frames hstart
    cases bytes with
    | nil =>
      constructor
      · intro h
        cases h
        exact ⟨.nil, le_rfl, hstart⟩
      · rintro ⟨⟨⟩, -, -⟩
        rfl
    | cons b rest =>
      constructor
      · intro h
        cases h
      · rintro ⟨⟨⟩, hlen, -⟩
        cases hlen
  | succ room ih =>
    intro start bytes frames hstart
    cases bytes with
    | nil =>
      constructor
      · intro h
        cases h
        exact ⟨.nil, Nat.zero_le _, hstart⟩
      · rintro ⟨⟨⟩, -, -⟩
        rfl
    | cons b rest =>
      constructor
      · intro h
        unfold ReceiveBuffers.parseServiceLoop at h
        split at h
        · split at h
          · cases h
          · cases h
        rename_i parsed hparse
        obtain ⟨hparse, hroom⟩ := parseFrameInto_ok_iff.mp hparse
        obtain ⟨tail, htail, h⟩ := bind_eq_ok h
        cases h
        obtain ⟨htail, hlen, htotal⟩ := (ih _ _ _ (by omega)).mp htail
        refine ⟨.cons hparse htail, Nat.succ_le_succ hlen, ?_⟩
        show start + (parsed.frame.ackRangeCount + ackRangeTotal tail) ≤ _
        omega
      rintro ⟨hframes, hlen, htotal⟩
      obtain ⟨parsed, tail, rfl, hparse, htail⟩ := hframes.of_cons
      have hsum : start + (parsed.frame.ackRangeCount + ackRangeTotal tail) ≤
          buffers.ackRangeCapacity := htotal
      unfold ReceiveBuffers.parseServiceLoop
      rw [parseFrameInto_ok_iff.mpr ⟨hparse, by omega⟩]
      dsimp only
      rw [(ih _ _ _ (by omega)).mpr ⟨htail, Nat.le_of_succ_le_succ hlen, by omega⟩]
      rfl

/-- A payload of well-formed frames gives no reason to close, whatever the fuel. -/
theorem classifyFrames_of_payloadFrames (h : PayloadFrames bytes frames) :
    ∀ fuel, classifyFrames .oneRtt fuel bytes = .ok none := by
  induction h with
  | nil =>
    intro fuel
    cases fuel <;> rfl
  | cons hparse _ ih =>
    intro fuel
    cases fuel with
    | zero => rfl
    | succ fuel =>
      unfold classifyFrames
      rw [hparse]
      exact ih fuel

namespace ReceiveBuffers

variable (buffers : ReceiveBuffers) (payload : Bytes) (frames : List Frame)

lemma openPayloadWithFrameClose_ok_iff :
    buffers.openPayloadWithFrameClose payload = .ok frames ↔
      PayloadFrames payload frames ∧ 0 < frames.length ∧
        frames.length ≤ buffers.maxFramesPerPacket := by
  unfold openPayloadWithFrameClose
  constructor
  · intro h
    split at h
    · cases h
    · cases h
    split at h
    · cases h
    rename_i frames' hparse
    cases h
    obtain ⟨frames', hloop, hparse⟩ := bind_eq_ok hparse
    split at hparse
    · cases hparse
    rename_i hne
    cases hparse
    obtain ⟨hframes, hlen⟩ := (parsePacketFramesLoop_ok_iff _ _ _).mp hloop
    exact ⟨hframes, Nat.pos_of_ne_zero hne, hlen⟩
  rintro ⟨hframes, hpos, hlen⟩
  have hclassify : classifyFramePayloadCloseError payload .oneRtt = .ok none := by
    unfold classifyFramePayloadCloseError
    rw [if_neg (hframes.length_pos_iff.mp hpos)]
    exact classifyFrames_of_payloadFrames hframes _
  have hparse : parsePacketFramesForType payload buffers.maxFramesPerPacket .oneRtt =
      .ok frames := by
    unfold parsePacketFramesForType
    rw [(parsePacketFramesLoop_ok_iff _ _ _).mpr ⟨hframes, hlen⟩]
    show (if frames.length = 0 then _ else _) = _
    rw [if_neg hpos.ne']
  simp [hclassify, hparse]

lemma parseServicePacketFramesOrClose_ok_iff :
    buffers.parseServicePacketFramesOrClose payload = .ok frames ↔
      PayloadFrames payload frames ∧ 0 < frames.length ∧
        frames.length ≤ buffers.maxFramesPerPacket ∧
        ackRangeTotal frames ≤ buffers.ackRangeCapacity := by
  unfold parseServicePacketFramesOrClose
  by_cases hempty : payload.length = 0
  · rw [if_pos hempty]
    constructor
    · simp
    · rintro ⟨hframes, hpos, -, -⟩
      exact absurd hempty (hframes.length_pos_iff.mp hpos)
  rw [if_neg hempty, parseServiceLoop_ok_iff buffers _ 0 _ _ (Nat.zero_le _), Nat.zero_add]
  constructor
  · rintro ⟨hframes, hlen, htotal⟩
    exact ⟨hframes, hframes.length_pos_iff.mpr hempty, hlen, htotal⟩
  · rintro ⟨hframes, -, hlen, htotal⟩
    exact ⟨hframes, hlen, htotal⟩

/-- Both paths reject the payload, or both return the same frames. -/
def PathsAgree : Prop :=
  (∃ frames, buffers.parseServicePacketFramesOrClose payload = .ok frames ∧
    buffers.openPayloadWithFrameClose payload = .ok frames) ∨
  ((∃ r, buffers.parseServicePacketFramesOrClose payload = .error r) ∧
    ∃ r, buffers.openPayloadWithFrameClose payload = .error r)

/--
**The two paths agree on a payload exactly when it is not a run of well-formed frames, few
enough for a packet, whose ACK frames carry more ranges than the buffer holds.**
-/
theorem pathsAgree_iff :
    buffers.PathsAgree payload ↔ ∀ frames, PayloadFrames payload frames →
        frames.length ≤ buffers.maxFramesPerPacket →
          ackRangeTotal frames ≤ buffers.ackRangeCapacity := by
  constructor
  · intro hagree frames hframes hlen
    by_cases hpos : 0 < frames.length
    · have hopen := (buffers.openPayloadWithFrameClose_ok_iff payload frames).mpr
        ⟨hframes, hpos, hlen⟩
      rcases hagree with ⟨frames', hservice, hopen'⟩ | ⟨-, r, hopen'⟩
      · rw [hopen] at hopen'
        cases hopen'
        exact ((buffers.parseServicePacketFramesOrClose_ok_iff payload frames).mp hservice).2.2.2
      · simp [hopen] at hopen'
    have hnil : frames = [] := length_eq_zero_iff.mp (by omega)
    rw [hnil]
    exact Nat.zero_le _
  intro hroom
  cases hopen : buffers.openPayloadWithFrameClose payload with
  | ok frames =>
    obtain ⟨hframes, hpos, hlen⟩ :=
      (buffers.openPayloadWithFrameClose_ok_iff payload frames).mp hopen
    refine .inl ⟨frames, ?_, hopen⟩
    exact (buffers.parseServicePacketFramesOrClose_ok_iff payload frames).mpr
      ⟨hframes, hpos, hlen, hroom frames hframes hlen⟩
  | error r =>
    refine .inr ⟨?_, r, hopen⟩
    cases hservice : buffers.parseServicePacketFramesOrClose payload with
    | error r' => exact ⟨r', rfl⟩
    | ok frames =>
      -- the service path asks for more, so the owning one cannot have refused
      obtain ⟨hframes, hpos, hlen, -⟩ :=
        (buffers.parseServicePacketFramesOrClose_ok_iff payload frames).mp hservice
      rw [(buffers.openPayloadWithFrameClose_ok_iff payload frames).mpr
        ⟨hframes, hpos, hlen⟩] at hopen
      cases hopen

/--
With the default limits, and a range buffer that grew by half as usual, an ACK of 105 ranges is
a reason to close on one path and a frame on the other.
-/
theorem not_pathsAgree_many_ranges {capacity : Nat} (h : 64 ≤ capacity)
    (hcapacity : capacity ≤ 104) :
    ¬ ReceiveBuffers.PathsAgree { ackRangeCapacity := capacity, capacity_ge := h }
      ([0x02, 0x41, 0x2c, 0x00, 0x40, 0x69, 0x00] ++ replicate 210 0) := by
  have hparse : parseFrameOwned
      ([0x02, 0x41, 0x2c, 0x00, 0x40, 0x69, 0x00] ++ replicate 210 0) =
        .ok ⟨.ack ⟨300, 0, 0, replicate 105 ⟨0, 0⟩, none⟩, 217⟩ := by decide +kernel
  have hframes : PayloadFrames
      ([0x02, 0x41, 0x2c, 0x00, 0x40, 0x69, 0x00] ++ replicate 210 0)
      [.ack ⟨300, 0, 0, replicate 105 ⟨0, 0⟩, none⟩] := .cons hparse .nil
  have hopen := (openPayloadWithFrameClose_ok_iff
    { ackRangeCapacity := capacity, capacity_ge := h } _ _).mpr
    ⟨hframes, Nat.zero_lt_succ _, Nat.succ_le_succ (Nat.zero_le 15)⟩
  rintro (⟨frames, hservice, hopen'⟩ | ⟨-, r, hopen'⟩)
  · rw [hopen] at hopen'
    cases hopen'
    have := ((parseServicePacketFramesOrClose_ok_iff _ _ _).mp hservice).2.2.2
    have : 105 ≤ capacity := this
    omega
  · rw [hopen] at hopen'
    cases hopen'

/-- The capacity that a list of room for 64 ranges gets. -/
theorem pathsAgree_fails_many_ranges :
    ¬ ReceiveBuffers.PathsAgree { ackRangeCapacity := 65, capacity_ge := by decide }
      ([0x02, 0x41, 0x2c, 0x00, 0x40, 0x69, 0x00] ++ replicate 210 0) :=
  not_pathsAgree_many_ranges _ (by decide)

end ReceiveBuffers

end Netz.Quic
