/-
Frames read back: the frames with a layout of their own, and the round trip of all of them.

A STREAM frame is written with the Length bit always set, and with the Offset bit only when
there is an offset, so the type has to be taken apart again; an ACK carries a counted list of
ranges, and its type says whether ECN counts follow.
-/
import Netz.Proofs.FrameFields

namespace Netz.Quic

open Lib Lib.Reader Varint FrameType
open List hiding Vector

/-! ### Fixed layouts -/

variable {frame : Frame} {frameType : FrameType} {n k value : Nat} {word : Bytes}

lemma coded_single_byte (hlt : frameType.toInt < 64) (hne : frameType.toInt ≠ padding.toInt)
    (hwrite : frame.writeAssumeCapacity = .ok (writeSingleByteFrame frameType))
    (hread : parseFrameAfterType true frameType.toInt = pure frame) : Coded frame 1 := by
  refine Coded.of_byte _ hlt hne hwrite rfl ?_
  rw [hread]
  exact Reads.done frame

lemma coded_path {data : Vector UInt8 8} (hlt : frameType.toInt < 64)
    (hne : frameType.toInt ≠ padding.toInt)
    (hwrite : frame.writeAssumeCapacity = .ok (writeFixedPathFrame frameType data))
    (hread : ∀ word, Reads (Cursor.readArray 8) word data →
      Reads (parseFrameAfterType true frameType.toInt) word frame) : Coded frame 9 := by
  refine Coded.of_byte _ hlt hne hwrite ?_ (hread _ (reads_takeVector Error.bufferTooShort data))
  simp

lemma coded_newConnectionId {frame : NewConnectionIdFrame}
    (h : (Frame.newConnectionId frame).wireLen = .ok n) : Coded (.newConnectionId frame) n := by
  obtain ⟨_, hcid, h⟩ := bind_eq_ok h
  obtain ⟨hretire, h⟩ := of_guard h nofun
  obtain ⟨k₁, h₁, h⟩ := addVarintLen_bind h
  obtain ⟨k₂, h₂, h⟩ := addVarintLen_bind h
  obtain ⟨len₃, hlen₃, h⟩ := bind_eq_ok h
  obtain ⟨len₄, hlen₄, h⟩ := bind_eq_ok h
  have hn : n = 1 + k₁ + k₂ + 1 + frame.connectionId.length + 16 := by
    rw [addWireLen_ok h, addWireLen_ok hlen₄, addWireLen_ok hlen₃]
  have hsize : frame.connectionId.length ≤ 20 := by
    unfold validateConnectionIdLen at hcid
    split at hcid
    · cases hcid
    · omega
  have hbyte : (UInt8.ofNat frame.connectionId.length).toNat = frame.connectionId.length := by
    rw [UInt8.toNat_ofNat']
    omega
  refine Coded.of_byte (encodeWithLen frame.sequenceNumber k₁ ++
      (encodeWithLen frame.retirePriorTo k₂ ++ ([UInt8.ofNat frame.connectionId.length] ++
          (frame.connectionId ++ frame.statelessResetToken.toList))))
    (by decide : newConnectionId.toInt < 64) (by decide) ?_ ?_ ?_
  · show (validateConnectionIdLen frame.connectionId.length >>= fun _ =>
      if frame.retirePriorTo > frame.sequenceNumber then _ else _) = _
    rw [hcid, if_neg hretire]
    unfold writeNewConnectionIdFrame
    rw [h₁, h₂]
    simp only [← append_assoc]
    rfl
  · simp only [hn, length_append, length_encodeWithLen h₁,
      length_encodeWithLen h₂, length_singleton, Vector.length_toList]
    omega
  refine (reads_encodeWithLen h₁).bind ((reads_encodeWithLen h₂).bind ?_)
  rw [if_neg hretire]
  refine (reads_next Error.bufferTooShort _).bind ?_
  rw [hbyte]
  exact Reads.check (check_ok hcid) ((reads_readSlice _).bind
    ((reads_takeVector Error.bufferTooShort frame.statelessResetToken).map rfl))

lemma coded_ackFrequency {frame : AckFrequencyFrame}
    (h : (Frame.ackFrequency frame).wireLen = .ok n) : Coded (.ackFrequency frame) n := by
  obtain ⟨_, hvalid, h⟩ := bind_eq_ok h
  obtain ⟨k₁, h₁, h⟩ := addVarintLen_bind h
  obtain ⟨k₂, h₂, h⟩ := addVarintLen_bind h
  obtain ⟨k₃, h₃, h⟩ := addVarintLen_bind h
  obtain ⟨k₄, h₄, hn⟩ := addVarintLen_ok h
  refine ⟨ackFrequency.toInt, 2, encodeWithLen frame.sequenceNumber k₁ ++
    (encodeWithLen frame.ackElicitingThreshold k₂ ++
      (encodeWithLen frame.requestMaxAckDelay k₃ ++
        encodeWithLen frame.reorderingThreshold k₄)), rfl, by decide, ?_, ?_, ?_⟩
  · show writeAckFrequencyFrame frame = _
    unfold writeAckFrequencyFrame
    rw [hvalid, h₁, h₂, h₃, h₄]
    simp only [← append_assoc]
    rfl
  · simp only [length_append, length_encodeWithLen h₁,
      length_encodeWithLen h₂, length_encodeWithLen h₃,
      length_encodeWithLen h₄]
    omega
  refine (reads_encodeWithLen h₁).bind ((reads_encodeWithLen h₂).bind
    ((reads_encodeWithLen h₃).bind ((reads_encodeWithLen h₄).map ?_)))
  simp [check_ok hvalid]

/-! ### STREAM and DATAGRAM -/

lemma streamFrameType_spec (stream : StreamFrame) :
    streamFrameType stream < 64 ∧ streamFrameType stream ≠ padding.toInt ∧
      parseFrameAfterType true (streamFrameType stream) = parseStream (streamFrameType stream) ∧
      (streamFrameType stream &&& 0x04 ≠ 0 ↔ stream.offset ≠ 0) ∧
      streamFrameType stream &&& 0x02 ≠ 0 ∧
      decide (streamFrameType stream &&& 0x01 ≠ 0) = stream.fin := by
  unfold streamFrameType
  by_cases hoffset : stream.offset = 0
  · cases hfin : stream.fin <;> simp [hoffset] <;> refine ⟨by decide, by decide, rfl, by decide⟩
  · cases hfin : stream.fin <;> simp [hoffset] <;> refine ⟨by decide, by decide, rfl, by decide⟩

lemma reads_offset {stream : StreamFrame}
    (h : (if stream.offset = 0 then .ok 0 else Varint.length stream.offset) = .ok k) :
    Reads (if streamFrameType stream &&& 0x04 ≠ 0 then decode else pure 0)
      (if stream.offset ≠ 0 then encodeWithLen stream.offset k else []) stream.offset := by
  obtain ⟨-, -, -, hflag, -⟩ := streamFrameType_spec stream
  by_cases hoffset : stream.offset = 0
  · rw [if_neg (mt hflag.mp (not_not.mpr hoffset)), hoffset]
    exact Reads.done 0
  rw [if_pos (hflag.mpr hoffset), if_pos hoffset]
  rw [if_neg hoffset] at h
  exact reads_encodeWithLen h

lemma coded_stream {frame : StreamFrame} (h : (Frame.stream frame).wireLen = .ok n) :
    Coded (.stream frame) n := by
  obtain ⟨_, hend, h⟩ := bind_eq_ok h
  obtain ⟨k₁, h₁, h⟩ := addVarintLen_bind h
  obtain ⟨len, hlen, h⟩ := bind_eq_ok h
  obtain ⟨k₂, h₂, hlen₂⟩ : ∃ k, (if frame.offset = 0 then .ok 0 else Varint.length frame.offset) =
      .ok k ∧ len = 1 + k₁ +
        (if frame.offset ≠ 0 then encodeWithLen frame.offset k else []).length := by
    unfold addOffsetWireLen at hlen
    by_cases hoffset : frame.offset = 0
    · rw [if_neg (not_not.mpr hoffset)] at hlen
      cases hlen
      exact ⟨0, by rw [if_pos hoffset], by simp [hoffset]⟩
    rw [if_pos hoffset] at hlen
    obtain ⟨k, hk, hlen⟩ := addVarintLen_ok hlen
    refine ⟨k, by rw [if_neg hoffset]; exact hk, ?_⟩
    rw [if_pos hoffset, length_encodeWithLen hk, hlen]
  obtain ⟨k₃, h₃, h⟩ := addVarintLen_bind h
  have hn := addWireLen_ok h
  obtain ⟨hlt, hne, hparse, -, hlength, hfin⟩ := streamFrameType_spec frame
  refine Coded.of_byte (encodeWithLen frame.streamId k₁ ++
      ((if frame.offset ≠ 0 then encodeWithLen frame.offset k₂ else []) ++
        (encodeWithLen frame.data.length k₃ ++ frame.data))) hlt hne ?_ ?_ ?_
  · show (validateEndOffset frame.offset frame.data.length >>= fun _ => writeStreamFrame frame) = _
    rw [hend]
    unfold writeStreamFrame
    rw [h₁, h₂, h₃]
    simp only [← append_assoc]
    rfl
  · simp only [length_append, length_encodeWithLen h₁, length_encodeWithLen h₃]
    omega
  rw [hparse]
  refine (reads_encodeWithLen h₁).bind ((reads_offset h₂).bind ?_)
  rw [if_pos hlength]
  refine (reads_decodeUsize h₃).bind (Reads.check (check_ok hend) ?_)
  exact (reads_readSlice frame.data).map (by rw [hfin])

lemma coded_datagram {data : Bytes} (h : (Frame.datagram data true).wireLen = .ok n) :
    Coded (.datagram data true) n := by
  obtain ⟨k, hk, h⟩ := addVarintLen_bind h
  refine Coded.of_byte (encodeWithLen data.length k ++ data)
    (by decide : datagramLen.toInt < 64) (by decide) ?_ ?_ ?_
  · show writeDatagramFrame data true = _
    unfold writeDatagramFrame
    rw [hk]
    rfl
  · rw [addWireLen_ok h, length_append, length_encodeWithLen hk, Nat.add_assoc]
  · exact (reads_lengthPrefixed hk).map rfl

/-! ### ACK -/

lemma encode_eq (h : Varint.length value = .ok k) :
    encode value = .ok (encodeWithLen value k) := by simp [h, encode]

lemma one_le_length (h : Varint.length value = .ok k) : 1 ≤ k := by
  have := (length_ok h).2
  omega

/-- What the three functions agree on about the ranges of an ACK. -/
theorem ranges_coded (ranges : List AckRange) :
    ∀ {len n : Nat}, addRangesWireLen len ranges = .ok n →
      ∃ word, writeAckRanges ranges = .ok word ∧ n = len + word.length ∧
        2 * ranges.length ≤ word.length ∧
        Reads (parseAckRange.times ranges.length) word ranges := by
  induction ranges with
  | nil =>
    intro len n h
    cases h
    exact ⟨[], rfl, rfl, by simp, Reads.done []⟩
  | cons range rest ih =>
    intro len n h
    obtain ⟨k₁, h₁, h⟩ := addVarintLen_bind h
    obtain ⟨k₂, h₂, h⟩ := addVarintLen_bind h
    obtain ⟨word, hwrite, hn, hsize, hread⟩ := ih h
    have hlen₁ := length_encodeWithLen h₁
    have hlen₂ := length_encodeWithLen h₂
    refine ⟨encodeWithLen range.gap k₁ ++
      encodeWithLen range.ackRangeLength k₂ ++ word, ?_, ?_, ?_, ?_⟩
    · unfold writeAckRanges
      rw [encode_eq h₁, encode_eq h₂, hwrite]
      rfl
    · simp only [length_append, hlen₂]
      omega
    · have := one_le_length h₁
      have := one_le_length h₂
      simp only [length_append, length_cons, hlen₂]
      omega
    have hrange : Reads parseAckRange (encodeWithLen range.gap k₁ ++
        encodeWithLen range.ackRangeLength k₂) range :=
      (reads_encodeWithLen h₁).bind ((reads_encodeWithLen h₂).map rfl)
    exact hrange.bind (hread.map rfl)

lemma ecn_coded {ecn : Option EcnCounts} {len : Nat} (h : addEcnWireLen len ecn = .ok n) :
    ∃ word, writeEcnCounts ecn = .ok word ∧ n = len + word.length ∧
      (if ecn.isSome then 3 else 0) ≤ word.length ∧ Reads (parseEcnCounts ecn.isSome) word ecn := by
  cases ecn with
  | none =>
    cases h
    exact ⟨[], rfl, rfl, by simp, Reads.done none⟩
  | some ecn =>
    obtain ⟨k₁, h₁, h⟩ := addVarintLen_bind h
    obtain ⟨k₂, h₂, h⟩ := addVarintLen_bind h
    obtain ⟨k₃, h₃, hn⟩ := addVarintLen_ok h
    have hlen₁ := length_encodeWithLen h₁
    have hlen₂ := length_encodeWithLen h₂
    have hlen₃ := length_encodeWithLen h₃
    refine ⟨encodeWithLen ecn.ect0Count k₁ ++ (encodeWithLen ecn.ect1Count k₂ ++
      encodeWithLen ecn.ecnCeCount k₃), ?_, ?_, ?_, ?_⟩
    · unfold writeEcnCounts
      dsimp only
      rw [encode_eq h₁, encode_eq h₂, encode_eq h₃, ← append_assoc]
      rfl
    · simp only [length_append, hlen₃]
      omega
    · have := one_le_length h₁
      have := one_le_length h₂
      have := one_le_length h₃
      simp only [Option.isSome_some, if_true, length_append, hlen₃]
      omega
    · exact (reads_encodeWithLen h₁).bind ((reads_encodeWithLen h₂).bind
        ((reads_encodeWithLen h₃).map rfl))

/-- The early check of the range count passes when the ranges are really there. -/
theorem reads_payloadFits {α : Type} {count : Nat} {hasEcn : Bool} {a : α} {next : Cursor α}
    (hcount : Varint.length count = .ok k)
    (hsize : count * 2 + (if hasEcn then 3 else 0) ≤ word.length) (hnext : Reads next word a) :
    Reads (Cursor.remaining >>= fun remaining =>
      Cursor.check (validateAckRangePayloadFits remaining count hasEcn) >>= fun _ => next)
      word a := by
  intro rest
  have hmax := (length_ok hcount).1
  unfold varintMax at hmax
  refine bind_ok_iff.mpr ⟨(word ++ rest).length, word ++ rest, rfl, ?_⟩
  have hfits : validateAckRangePayloadFits (word ++ rest).length count hasEcn = .ok () := by
    unfold validateAckRangePayloadFits checkedAdd
    have hadd : count * 2 + (if hasEcn then 3 else 0) ≤ maxU64 := by
      unfold maxU64
      split <;> omega
    rw [if_neg (by omega), if_pos hadd]
    show (if _ < _ then _ else _) = _
    rw [if_neg (by rw [length_append]; omega)]
  rw [check_ok hfits]
  exact hnext rest

lemma coded_ack {frame : AckFrame} (h : (Frame.ack frame).wireLen = .ok n) :
    Coded (.ack frame) n := by
  have hwire : ackFrameWireLen frame = .ok n := h
  obtain ⟨_, hvalid, h⟩ := bind_eq_ok h
  obtain ⟨k₁, h₁, h⟩ := addVarintLen_bind h
  obtain ⟨k₂, h₂, h⟩ := addVarintLen_bind h
  obtain ⟨k₃, h₃, h⟩ := addVarintLen_bind h
  obtain ⟨k₄, h₄, h⟩ := addVarintLen_bind h
  obtain ⟨len, hlen, h⟩ := bind_eq_ok h
  obtain ⟨ranges, hranges, rfl, hcount, hreadRanges⟩ := ranges_coded frame.ranges hlen
  obtain ⟨ecn, hecn, hn, hecnSize, hreadEcn⟩ := ecn_coded h
  have halloc : allocatedRanges true frame.ranges.length = .ok () := by simp [allocatedRanges]
  -- everything after the type, whichever of the two it is
  obtain ⟨body, hbody⟩ : ∃ body, body = encodeWithLen frame.largestAcknowledged k₁ ++
      (encodeWithLen frame.ackDelay k₂ ++ (encodeWithLen frame.ranges.length k₃ ++
          (encodeWithLen frame.firstAckRange k₄ ++ (ranges ++ ecn)))) := ⟨_, rfl⟩
  have hread : Reads (parseAckFrame true frame.ecnCounts.isSome) body frame := by
    rw [hbody]
    refine (reads_encodeWithLen h₁).bind ((reads_encodeWithLen h₂).bind
      ((reads_decodeUsize h₃).bind ((reads_encodeWithLen h₄).bind
        (reads_payloadFits h₃ ?_ (Reads.check (check_ok halloc)
          (hreadRanges.bind (hreadEcn.map ?_)))))))
    · rw [length_append]
      omega
    · simp [check_ok hvalid]
  have hsize : n = 1 + body.length := by
    simp only [hbody, length_append, length_encodeWithLen h₁,
      length_encodeWithLen h₂, length_encodeWithLen h₃,
      length_encodeWithLen h₄]
    omega
  have hbytes : (Frame.ack frame).writeAssumeCapacity = .ok
      ((if frame.ecnCounts.isNone then ack.byte else ackEcn.byte) :: body) := by
    show writeAckFrame frame = _
    unfold writeAckFrame writeAckFields
    rw [hwire, encode_eq h₁, encode_eq h₂, encode_eq h₃, encode_eq h₄, hranges, hecn, hbody]
    simp only [← append_assoc]
    rfl
  cases hcounts : frame.ecnCounts with
  | none =>
    rw [hcounts] at hread hbytes
    exact Coded.of_byte _ (by decide : ack.toInt < 64) (by decide) hbytes hsize
      (hread.map rfl)
  | some counts =>
    rw [hcounts] at hread hbytes
    exact Coded.of_byte _ (by decide : ackEcn.toInt < 64) (by decide) hbytes hsize
      (hread.map rfl)

/-! ### Every frame -/

/--
The frames that run to the end of the input.  A STREAM frame is always written with its
length, so only a DATAGRAM can be one.
-/
def Frame.openEnded : Frame → Bool
  | .datagram _ lengthPresent => !lengthPresent
  | _ => false

lemma coded_of_wireLen (hopen : frame.openEnded = false) (hpad : ∀ len, frame ≠ .padding len)
    (h : frame.wireLen = .ok n) : Coded frame n := by
  cases frame with
  | padding len => exact absurd rfl (hpad len)
  | ping =>
    cases h
    exact coded_single_byte (by decide) (by decide) rfl rfl
  | ack frame => exact coded_ack h
  | resetStream frame => exact coded_resetStream h
  | stopSending frame => exact coded_stopSending h
  | newToken token => exact coded_newToken h
  | crypto offset data => exact coded_crypto h
  | stream frame => exact coded_stream h
  | maxData maximum => exact coded_maxData h
  | maxStreamData streamId maximum => exact coded_maxStreamData h
  | maxStreamsBidi maximum => exact coded_maxStreamsBidi h
  | maxStreamsUni maximum => exact coded_maxStreamsUni h
  | dataBlocked maximum => exact coded_dataBlocked h
  | streamDataBlocked streamId maximum => exact coded_streamDataBlocked h
  | streamsBlockedBidi maximum => exact coded_streamsBlockedBidi h
  | streamsBlockedUni maximum => exact coded_streamsBlockedUni h
  | newConnectionId frame => exact coded_newConnectionId h
  | retireConnectionId sequenceNumber => exact coded_retireConnectionId h
  | pathChallenge data =>
    cases h
    exact coded_path (by decide) (by decide) rfl (fun _ hr => hr.map rfl)
  | pathResponse data =>
    cases h
    exact coded_path (by decide) (by decide) rfl (fun _ hr => hr.map rfl)
  | connectionClose errorCode frameType reason => exact coded_connectionClose h
  | applicationClose errorCode reason => exact coded_applicationClose h
  | handshakeDone =>
    cases h
    exact coded_single_byte (by decide) (by decide) rfl rfl
  | immediateAck =>
    cases h
    exact coded_single_byte (by decide) (by decide) rfl rfl
  | datagram data lengthPresent =>
    cases lengthPresent with
    | false => cases hopen
    | true => exact coded_datagram h
  | ackFrequency frame => exact coded_ackFrequency h

/-- A parser over a cursor, run from the start of the bytes it takes. -/
theorem parseWith_append {parser : Cursor Frame} {rest : Bytes}
    (h : parser (word ++ rest) = .ok (frame, rest)) :
    parseWith parser (word ++ rest) = .ok { frame, consumed := word.length } := by
  simp [h, parseWith]

lemma Coded.parse (h : Coded frame n) :
    ∃ bytes, frame.writeAssumeCapacity = .ok bytes ∧ bytes.length = n ∧
      ∀ rest, parseFrameOwned (bytes ++ rest) = .ok { frame, consumed := n } := by
  obtain ⟨frameType, typeLen, body, htype, hne, hwrite, rfl, hread⟩ := h
  refine ⟨_, hwrite, ?_, ?_⟩
  · rw [length_append, length_encodeWithLen htype]
  intro rest
  have hframe : Reads (frameOwned true) (encodeWithLen frameType typeLen ++ body)
      frame := by
    refine (reads_frameType frameType htype).bind ?_
    simp [hne, hread]
  have hparse := parseWith_append (hframe rest)
  rw [length_append, length_encodeWithLen htype] at hparse
  exact hparse

/-- A run of zero bytes is one PADDING frame, as long as the run. -/
theorem parse_padding (len : Nat) (rest : Bytes) (hrest : rest.head? ≠ some 0) :
    parseFrameOwned (appendPadding (len + 1) ++ rest) =
      .ok { frame := .padding (len + 1), consumed := len + 1 } := by
  have hdrop : (appendPadding len ++ rest).dropWhile (· = padding.byte) = rest := by
    unfold appendPadding
    rw [dropWhile_append_of_pos (by simp)]
    cases rest with
    | nil => rfl
    | cons b tail =>
      have hb : ¬ b = padding.byte := fun hb => hrest (by rw [hb]; rfl)
      rw [dropWhile_cons_of_neg (by simpa using hb)]
  have hlen : (appendPadding len).length = len := length_replicate
  have htype : parseFrameType (appendPadding (len + 1) ++ rest) =
      .ok (padding.toInt, appendPadding len ++ rest) :=
    reads_frameType padding.toInt rfl (appendPadding len ++ rest)
  have hframe : frameOwned true (appendPadding (len + 1) ++ rest) =
      .ok (.padding (len + 1), rest) := by
    refine bind_ok_iff.mpr ⟨_, _, htype, ?_⟩
    simp [hdrop, hlen, Nat.add_comm, parsePadding]
  have hparse := parseWith_append hframe
  rw [show (appendPadding (len + 1)).length = len + 1 from length_replicate] at hparse
  exact hparse

lemma parse_openEnded (data : Bytes) :
    parseFrameOwned (datagram.byte :: data) =
      .ok { frame := .datagram data false, consumed := 1 + data.length } := by
  have htype : parseFrameType (datagram.byte :: data) =
      .ok (datagram.toInt, data) :=
    reads_frameType datagram.toInt rfl data
  have hframe : frameOwned true (datagram.byte :: data) =
      .ok (.datagram data false, []) := bind_ok_iff.mpr ⟨_, _, htype, rfl⟩
  unfold parseFrameOwned parseWith
  simp [hframe, Nat.add_comm]

/--
**Every frame that has a `wireLen` is written in that many bytes and read back from them**,
whatever follows; nothing may follow a frame that runs to the end, and no further zero a run
of PADDING.
-/
theorem Frame.parse_write (frame : Frame) (n : Nat) (hlen : frame.wireLen = .ok n) :
    ∃ bytes, (∀ list, frame.write list = .ok (list ++ bytes)) ∧ bytes.length = n ∧
      ∀ rest, frame ≠ .padding 0 → (frame.openEnded = true → rest = []) →
        (∀ len, frame = .padding len → rest.head? ≠ some 0) →
        parseFrameOwned (bytes ++ rest) = .ok { frame, consumed := n } := by
  have hwrite : ∀ {bytes : Bytes}, frame.writeAssumeCapacity = .ok bytes →
      ∀ list, frame.write list = .ok (list ++ bytes) := by
    intro bytes hbytes list
    unfold Frame.write
    rw [hlen, hbytes]
    rfl
  by_cases hpad : ∃ len, frame = .padding len
  · obtain ⟨len, rfl⟩ := hpad
    cases hlen
    refine ⟨appendPadding n, hwrite rfl, length_replicate, ?_⟩
    intro rest hzero _ hrest
    obtain ⟨m, rfl⟩ : ∃ m, n = m + 1 :=
      Nat.exists_eq_succ_of_ne_zero (fun h => hzero (by rw [h]))
    exact parse_padding m rest (hrest _ rfl)
  by_cases hopen : frame.openEnded = true
  · cases frame with
    | datagram data lengthPresent =>
      cases lengthPresent with
      | true => cases hopen
      | false =>
        have hn : n = 1 + data.length := addWireLen_ok hlen
        refine ⟨FrameType.datagram.byte :: data, hwrite rfl, ?_, ?_⟩
        · rw [length_cons, hn, Nat.add_comm]
        intro rest _ hrest _
        rw [hrest rfl, append_nil, hn]
        exact parse_openEnded data
    | _ => cases hopen
  have hcoded := coded_of_wireLen (Bool.not_eq_true _ ▸ hopen)
    (fun len h => hpad ⟨len, h⟩) hlen
  obtain ⟨bytes, hbytes, hsize, hparse⟩ := hcoded.parse
  exact ⟨bytes, hwrite hbytes, hsize, fun rest _ _ _ => hparse rest⟩

/-- An ACK of 100 down to 97 and one range below, with ECN counts, and something after it. -/
theorem Frame.parse_write_ack :
    ∃ bytes, (Frame.ack ⟨100, 5, 3, [⟨1, 2⟩], some ⟨7, 0, 1⟩⟩).write [] = .ok bytes ∧
      parseFrameOwned (bytes ++ [0x07, 0x01, 0xff]) =
        .ok ⟨.ack ⟨100, 5, 3, [⟨1, 2⟩], some ⟨7, 0, 1⟩⟩, 11⟩ := by
  obtain ⟨bytes, hwrite, -, hparse⟩ :=
    Frame.parse_write (.ack ⟨100, 5, 3, [⟨1, 2⟩], some ⟨7, 0, 1⟩⟩) 11 rfl
  refine ⟨bytes, hwrite [], hparse _ (by simp) ?_ ?_⟩
  · intro hopen
    cases hopen
  · simp

end Netz.Quic
