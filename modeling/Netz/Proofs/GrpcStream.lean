/-
gRPC framing does not depend on where the input is cut.

Between two calls the decoder holds the beginning of a message, in its prefix or in its buffer.
With what it holds in front of the next piece, a call reads messages as often as it can; so it
delivers what the iterator reads.
-/
import Netz.Proofs.GrpcMessage

namespace Netz.Grpc

open Lib List

/-- The decoder takes flagged messages, and has not been finished. -/
structure Decoder.Ready (decoder : Decoder) (algorithm : Algorithm) (limit : Nat) : Prop where
  encoding : decoder.encoding = algorithm
  maxMessageSize : decoder.maxMessageSize = limit
  negotiated : algorithm ≠ .identity
  accepted : decoder.acceptedEncodings.contains algorithm = true
  finished : decoder.finished = false

/-- The bytes of the message that is not complete. -/
inductive Decoder.Holds (decoder : Decoder) : Bytes → Prop where
  | header (hlength : decoder.prefixBytes.length < 5) (hpayload : decoder.payload = none)
      (hzero : decoder.payloadLen = 0) : Decoder.Holds decoder decoder.prefixBytes
  | body {written : Bytes} {compressed : Bool} (hlength : decoder.prefixBytes.length = 5)
      (hpayload : decoder.payload = some written)
      (hhead : prefixOf decoder.maxMessageSize decoder.prefixBytes =
        .ok (compressed, decoder.payloadLen))
      (hshort : written.length < decoder.payloadLen) :
      Decoder.Holds decoder (decoder.prefixBytes ++ written)

namespace Decoder

variable {algorithm : Algorithm} {limit : Nat}

lemma Ready.preparePayload {decoder : Decoder} (h : decoder.Ready algorithm limit) :
    match prefixOf limit decoder.prefixBytes with
    | .error e => (decoder.preparePayload).1 = .error e
    | .ok (_, len) => decoder.preparePayload = (.ok (), { decoder with payloadLen := len }) := by
  unfold prefixOf Decoder.preparePayload
  by_cases hbad : 1 < decoder.prefixBytes.getD 0 0
  · rw [if_pos hbad, if_pos hbad]
  rw [if_neg hbad, if_neg hbad]
  have hlim := h.maxMessageSize
  by_cases hlarge : limit < ofBigEndian (decoder.prefixBytes.drop 1)
  · rw [if_pos hlarge, if_pos (by rw [hlim]; exact hlarge)]
  rw [if_neg hlarge, if_neg (by rw [hlim]; exact hlarge)]
  by_cases hflag : decoder.prefixBytes.getD 0 0 = 1
  · rw [if_pos hflag, if_neg (by rw [h.encoding]; exact h.negotiated),
      if_neg (by rw [h.encoding, h.accepted]; decide)]
  · rw [if_neg hflag]

lemma Ready.congr {decoder next : Decoder} (h : decoder.Ready algorithm limit)
    (hencoding : next.encoding = decoder.encoding)
    (hmax : next.maxMessageSize = decoder.maxMessageSize)
    (hacc : next.acceptedEncodings = decoder.acceptedEncodings)
    (hfinished : next.finished = decoder.finished) : next.Ready algorithm limit where
  encoding := by rw [hencoding, h.encoding]
  maxMessageSize := by rw [hmax, h.maxMessageSize]
  negotiated := h.negotiated
  accepted := by rw [hacc, h.accepted]
  finished := by rw [hfinished, h.finished]

lemma readDecoded_body [Decompressor] {bytes rest : Bytes} (h : bytes.length = 5) :
    readDecoded algorithm limit (bytes ++ rest) =
      match prefixOf limit bytes with
      | .error e => .error e
      | .ok (compressed, len) =>
        if len ≤ rest.length then
          Reader.check (decodeMessage algorithm limit
            { compressed := compressed, payload := rest.take len }) (rest.drop len)
        else .error .bufferTooShort := by
  unfold readDecoded
  rw [Reader.bind_run, readMessage_body h]
  cases prefixOf limit bytes with
  | error e => rfl
  | ok read =>
    dsimp only
    by_cases hlen : read.2 ≤ rest.length
    · rw [if_pos hlen, if_pos hlen]
    · rw [if_neg hlen, if_neg hlen]

lemma readDecoded_short [Decompressor] {input : Bytes} (h : input.length < 5) :
    readDecoded algorithm limit input = .error .bufferTooShort :=
  Reader.bind_error_iff.mpr (.inl (readMessage_short h))

lemma Ready.finish_iff {decoder : Decoder} {held : Bytes} (h : decoder.Ready algorithm limit)
    (hholds : decoder.Holds held) : decoder.finish.1 = .ok () ↔ held = [] := by
  unfold finish
  rw [if_neg (by rw [h.finished]; decide)]
  cases hholds with
  | header hlength hpay hzero =>
    by_cases hempty : decoder.prefixBytes = []
    · simp [hempty, hpay, hzero]
    · rw [if_pos (.inl fun hlen => hempty (eq_nil_of_length_eq_zero hlen))]
      exact ⟨nofun, fun hnil => absurd hnil hempty⟩
  | body hlength hpay hhead hshort =>
    rw [if_pos (.inl (by omega))]
    refine ⟨nofun, fun hnil => ?_⟩
    simp [(append_eq_nil_iff.mp hnil).1] at hlength

section Rounds

variable [Decompressor]

lemma readDecoded_ne_panic (input : Bytes) :
    readDecoded algorithm limit input ≠ .error .panic := by
  intro h
  by_cases hshort : input.length < 5
  · rw [readDecoded_short hshort] at h
    cases h
  rw [← take_append_drop 5 input,
    readDecoded_body (length_take_of_le (not_lt.mp hshort))] at h
  cases hhead : prefixOf limit (input.take 5) with
  | error e =>
    rw [hhead] at h
    cases h
    rcases prefixOf_error hhead with he | he <;> cases he
  | ok read =>
    rw [hhead] at h
    dsimp only at h
    by_cases hlen : read.2 ≤ (input.drop 5).length
    · rw [if_pos hlen] at h
      cases hmsg : decodeMessage algorithm limit
          { compressed := read.1, payload := (input.drop 5).take read.2 } with
      | error e =>
        rw [hmsg] at h
        cases h
        obtain ⟨reason, he⟩ := decodeMessage_error hmsg
        cases he
      | ok message =>
        rw [hmsg] at h
        cases h
    · rw [if_neg hlen] at h
      cases h

variable {decoder : Decoder}

lemma Holds.short {held : Bytes} (h : decoder.Holds held) :
    readDecoded algorithm decoder.maxMessageSize held = .error .bufferTooShort := by
  cases h with
  | header hlen hpay hzero => exact readDecoded_short hlen
  | body hlen hpay hhead hshort =>
    rw [readDecoded_body hlen, hhead]
    dsimp only
    rw [if_neg (by omega)]

/-- What a round has found out about the input that is not delivered, of which `unread` bytes
are new. -/
def Explains (algorithm : Algorithm) (limit : Nat) (input : Bytes) (unread : Nat) :
    Progress → Prop
  | .stop (.ok ()) next =>
    readDecoded algorithm limit input = .error .bufferTooShort ∧ next.Holds input ∧
      next.Ready algorithm limit
  | .stop (.error e) _ => readDecoded algorithm limit input = .error e ∧ e ≠ .bufferTooShort
  | .message payload next rest =>
    next.payload = none ∧ next.Ready algorithm limit ∧ rest.length < unread ∧
      readDecoded algorithm limit input = Reader.check (decodeMessage algorithm limit
          { compressed := next.prefixBytes.getD 0 0 == 1, payload := payload }) rest

lemma Ready.takePayload_fresh {compressed : Bool} {bytes : Bytes}
    {unread : Nat} (h : decoder.Ready algorithm limit) (hlen : decoder.prefixBytes.length = 5)
    (hpay : decoder.payload = none)
    (hhead : prefixOf limit decoder.prefixBytes = .ok (compressed, decoder.payloadLen))
    (hunread : bytes.length < unread) :
    Explains algorithm limit (decoder.prefixBytes ++ bytes) unread (decoder.takePayload bytes) := by
  have hread := @readDecoded_body algorithm limit _ decoder.prefixBytes bytes hlen
  rw [hhead] at hread
  dsimp only at hread
  rw [prefixOf_ok hhead] at hread
  unfold takePayload
  by_cases hzero : decoder.payloadLen = 0
  · rw [if_pos hzero]
    rw [hzero, if_pos (Nat.zero_le _)] at hread
    exact ⟨hpay, h, hunread, hread⟩
  rw [if_neg hzero, hpay]
  by_cases hfull : decoder.payloadLen ≤ bytes.length
  · rw [if_pos hfull]
    rw [if_pos hfull] at hread
    exact ⟨hpay, h, by rw [length_drop]; omega, hread⟩
  rw [if_neg hfull]
  rw [if_neg hfull] at hread
  have hholds : ({ decoder with payload := some bytes } : Decoder).Holds
      (decoder.prefixBytes ++ bytes) :=
    .body hlen rfl (by rw [h.maxMessageSize]; exact hhead) (not_le.mp hfull)
  exact ⟨hread, hholds, h.congr rfl rfl rfl rfl⟩

lemma Ready.takePayload_written {compressed : Bool} {written bytes : Bytes}
    (h : decoder.Ready algorithm limit) (hlen : decoder.prefixBytes.length = 5)
    (hpay : decoder.payload = some written)
    (hhead : prefixOf limit decoder.prefixBytes = .ok (compressed, decoder.payloadLen))
    (hshort : written.length < decoder.payloadLen) :
    Explains algorithm limit (decoder.prefixBytes ++ written ++ bytes) bytes.length
      (decoder.takePayload bytes) := by
  have hread := @readDecoded_body algorithm limit _ decoder.prefixBytes (written ++ bytes) hlen
  rw [hhead] at hread
  dsimp only at hread
  rw [prefixOf_ok hhead] at hread
  rw [append_assoc]
  unfold takePayload
  rw [if_neg (by omega), hpay]
  dsimp only
  by_cases hfull : decoder.payloadLen ≤ (written ++ bytes).length
  · rw [if_pos hfull, take_append, drop_append, take_of_length_le (by omega),
      drop_eq_nil_of_le (by omega)] at hread
    rw [length_append] at hfull
    rw [Nat.min_eq_left (by omega), if_neg (by
      rw [length_append, length_take_of_le (by omega)]
      omega)]
    refine ⟨rfl, h.congr rfl rfl rfl rfl, ?_, hread⟩
    rw [length_drop]
    omega
  rw [if_neg hfull] at hread
  rw [length_append] at hfull
  rw [Nat.min_eq_right (by omega), take_length, if_pos (by
    rw [length_append]
    omega)]
  have hmore : (written ++ bytes).length < decoder.payloadLen := by
    rw [length_append]
    omega
  have hholds : ({ decoder with payload := some (written ++ bytes) } : Decoder).Holds
      (decoder.prefixBytes ++ (written ++ bytes)) :=
    .body hlen rfl (by rw [h.maxMessageSize]; exact hhead) hmore
  exact ⟨hread, hholds, h.congr rfl rfl rfl rfl⟩

lemma Ready.prepare {bytes : Bytes} {unread : Nat}
    (h : decoder.Ready algorithm limit) (hlen : decoder.prefixBytes.length = 5)
    (hpay : decoder.payload = none) (hunread : bytes.length < unread) :
    Explains algorithm limit (decoder.prefixBytes ++ bytes) unread
      (match decoder.preparePayload with
      | (.error e, next) => .stop (.error e) next
      | (.ok (), next) => next.takePayload bytes) := by
  have hprep := h.preparePayload
  cases hhead : prefixOf limit decoder.prefixBytes with
  | error e =>
    rw [hhead] at hprep
    have hread := @readDecoded_body algorithm limit _ decoder.prefixBytes bytes hlen
    rw [hhead] at hread
    rw [← Prod.eta decoder.preparePayload, hprep]
    refine ⟨hread, ?_⟩
    rcases prefixOf_error hhead with he | he <;> rw [he] <;> decide
  | ok read =>
    rw [hhead] at hprep
    rw [hprep]
    have hready : ({ decoder with payloadLen := read.2 } : Decoder).Ready algorithm limit :=
      h.congr rfl rfl rfl rfl
    exact hready.takePayload_fresh hlen hpay hhead hunread

/-- **One round reads one message, or all of the input is the beginning of one.** -/
theorem Ready.takeBytes {held bytes : Bytes}
    (h : decoder.Ready algorithm limit) (hholds : decoder.Holds held) :
    Explains algorithm limit (held ++ bytes) bytes.length (decoder.takeBytes bytes) := by
  unfold Decoder.takeBytes
  cases hholds with
  | header hlen hpay hzero =>
    rw [if_pos hlen]
    dsimp only
    by_cases hfull : 5 - decoder.prefixBytes.length ≤ bytes.length
    · rw [Nat.min_eq_left hfull]
      have hfive : (decoder.prefixBytes ++
          bytes.take (5 - decoder.prefixBytes.length)).length = 5 := by
        rw [length_append, length_take_of_le hfull]
        omega
      rw [if_neg (by rw [hfive]; decide)]
      have hready : ({ decoder with
          prefixBytes := decoder.prefixBytes ++ bytes.take (5 - decoder.prefixBytes.length) } :
          Decoder).Ready algorithm limit := h.congr rfl rfl rfl rfl
      have hunread : (bytes.drop (5 - decoder.prefixBytes.length)).length < bytes.length := by
        rw [length_drop]
        omega
      have hexpl := hready.prepare hfive hpay hunread
      rw [append_assoc, take_append_drop] at hexpl
      exact hexpl
    have hall : (decoder.prefixBytes ++ bytes).length < 5 := by
      rw [length_append]
      omega
    rw [Nat.min_eq_right (by omega), take_length, if_pos (by omega)]
    have hholds : ({ decoder with prefixBytes := decoder.prefixBytes ++ bytes } :
        Decoder).Holds (decoder.prefixBytes ++ bytes) := .header hall hpay hzero
    exact ⟨readDecoded_short hall, hholds, h.congr rfl rfl rfl rfl⟩
  | body hlen hpay hhead hshort =>
    rw [if_neg (by omega)]
    rw [h.maxMessageSize] at hhead
    exact h.takePayload_written hlen hpay hhead hshort

lemma Ready.deliver_eq (h : decoder.Ready algorithm limit) (payload : Bytes) :
    decoder.deliver payload = decodeMessage algorithm limit
      { compressed := decoder.prefixBytes.getD 0 0 == 1, payload := payload } := by
  unfold deliver decodeMessage
  simp [h.encoding, h.maxMessageSize]

/-- What a call has delivered, and what it holds. -/
structure Served (algorithm : Algorithm) (limit : Nat) (input : Bytes) (fed : Fed) : Prop where
  reads : ∃ failure left,
    Reader.Drains Error.bufferTooShort (readDecoded algorithm limit) input fed.delivered failure
      left ∧
    match failure with
    | none => fed.result = .ok () ∧ fed.decoder.Holds left ∧ fed.decoder.Ready algorithm limit
    | some e => fed.result = .error e

/-- **A call reads messages as often as it can.** -/
theorem Ready.feedLoop {rounds : Nat} {held bytes : Bytes}
    (h : decoder.Ready algorithm limit) (hholds : decoder.Holds held)
    (hfuel : bytes.length < rounds) :
    Served algorithm limit (held ++ bytes) (decoder.feedLoop rounds bytes) := by
  induction rounds generalizing decoder held bytes with
  | zero => omega
  | succ rounds ih =>
    unfold Decoder.feedLoop
    by_cases hempty : bytes = []
    · rw [hempty, append_nil]
      have hshort := @Holds.short algorithm _ decoder held hholds
      rw [h.maxMessageSize] at hshort
      exact ⟨none, held, .stop hshort, rfl, hholds, h⟩
    rw [if_neg hempty]
    have hexpl := @Ready.takeBytes _ _ _ _ held bytes h hholds
    cases hprogress : decoder.takeBytes bytes with
    | stop result next =>
      rw [hprogress] at hexpl
      cases result with
      | error e => exact ⟨some e, _, .fail hexpl.1 hexpl.2, rfl⟩
      | ok done =>
        obtain ⟨hread, hnext, hready⟩ := hexpl
        exact ⟨none, _, .stop hread, rfl, hnext, hready⟩
    | message payload next rest =>
      rw [hprogress] at hexpl
      obtain ⟨hpay, hready, hunread, hread⟩ := hexpl
      rw [← hready.deliver_eq] at hread
      dsimp only
      cases hdeliver : next.deliver payload with
      | error e =>
        rw [hdeliver] at hread
        rw [hready.deliver_eq] at hdeliver
        obtain ⟨reason, rfl⟩ := decodeMessage_error hdeliver
        exact ⟨some _, _, .fail hread nofun, rfl⟩
      | ok message =>
        rw [hdeliver] at hread
        have hreset : next.resetMessage.Holds [] := .header (Nat.zero_lt_succ 4) hpay rfl
        obtain ⟨failure, left, hdrains, hends⟩ :=
          (@ih next.resetMessage [] rest (hready.congr rfl rfl rfl rfl) hreset
            (by omega)).reads
        exact ⟨failure, left, .step hread hdrains, hends⟩

lemma Ready.feed {held : Bytes} (h : decoder.Ready algorithm limit)
    (hholds : decoder.Holds held) (bytes : Bytes) :
    Served algorithm limit (held ++ bytes) (decoder.feed bytes) := by
  unfold Decoder.feed
  rw [if_neg (by rw [h.finished]; decide)]
  exact h.feedLoop hholds (by omega)

/-- Calls of `feed` up to the first failure. -/
def feedAll (decoder : Decoder) : List Bytes → Fed
  | [] => { result := .ok (), delivered := [], decoder := decoder }
  | bytes :: rest =>
    let fed := decoder.feed bytes
    match fed.result with
    | .error _ => fed
    | .ok () =>
      let more := fed.decoder.feedAll rest
      { more with delivered := fed.delivered ++ more.delivered }

/-- **Where the input is cut does not matter.** -/
theorem Ready.feedAll {held : Bytes} (h : decoder.Ready algorithm limit)
    (hholds : decoder.Holds held) (chunks : List Bytes) :
    Served algorithm limit (held ++ chunks.flatten) (decoder.feedAll chunks) := by
  induction chunks generalizing decoder held with
  | nil =>
    have hshort := @Holds.short algorithm _ decoder held hholds
    rw [h.maxMessageSize] at hshort
    rw [flatten_nil, append_nil]
    exact ⟨none, held, .stop hshort, rfl, hholds, h⟩
  | cons bytes rest ih =>
    obtain ⟨failure, left, hdrains, hends⟩ := (h.feed hholds bytes).reads
    rw [flatten_cons, ← append_assoc]
    unfold Decoder.feedAll
    dsimp only
    cases failure with
    | some e =>
      rw [show (decoder.feed bytes).result = .error e from hends]
      exact ⟨some e, _, hdrains.append_fail (incremental_readDecoded algorithm limit), hends⟩
    | none =>
      obtain ⟨hres, hnext, hready⟩ := hends
      rw [hres]
      obtain ⟨failure, left', hmore, hends⟩ := (ih hready hnext).reads
      exact ⟨failure, left', hdrains.append (incremental_readDecoded algorithm limit) hmore, hends⟩

end Rounds

/-- **The decoder delivers what the iterator reads, wherever the input is cut.**  It fails where
the iterator does for another reason than lack of input, and it can be finished where the iterator
comes to the end. -/
theorem framing_agrees [Decompressor] (algorithm : Algorithm) (limit : Nat)
    (accepted : AlgorithmSet) (chunks : List Bytes) (hnegotiated : algorithm ≠ .identity)
    (haccepted : accepted.contains algorithm = true) : let decoder : Decoder :=
      { maxMessageSize := limit, encoding := algorithm, acceptedEncodings := accepted }
    let iterator : MessageIterator := { input := chunks.flatten, maxMessageSize := limit }
    let fed := decoder.feedAll chunks
    let (messages, ending) := iterator.iterate algorithm (chunks.flatten.length + 1)
    fed.delivered = messages ∧
      (∀ e, fed.result = .error e ↔ ending = some e ∧ e ≠ .bufferTooShort) ∧
      (fed.result = .ok () → (fed.decoder.finish.1 = .ok () ↔ ending = none)) ∧
      ending ≠ some .panic := by
  intro decoder iterator fed
  have hready : decoder.Ready algorithm limit := ⟨rfl, rfl, hnegotiated, haccepted, rfl⟩
  have hholds : decoder.Holds [] := .header (Nat.zero_lt_succ 4) rfl rfl
  obtain ⟨failure, left, hdrains, hends⟩ := (hready.feedAll hholds chunks).reads
  obtain ⟨messages, failure', left', hiterator, hiterate⟩ :=
    @MessageIterator.iterate_drains _ algorithm (chunks.flatten.length + 1) iterator
      (Nat.zero_le _) (Nat.lt_succ_self _)
  obtain ⟨rfl, rfl, rfl⟩ := hdrains.unique hiterator
  rw [hiterate]
  cases failure with
  | none =>
    obtain ⟨hresult, hnext, hdone⟩ := hends
    rw [show fed.result = .ok () from hresult, hdone.finish_iff hnext]
    by_cases hleft : left = []
    · rw [if_pos hleft]
      exact ⟨rfl, fun e => ⟨nofun, nofun⟩, fun _ => ⟨fun _ => rfl, fun _ => hleft⟩, nofun⟩
    rw [if_neg hleft]
    refine ⟨rfl, fun e => ⟨nofun, fun h => ?_⟩, fun _ => ⟨fun h => absurd h hleft, nofun⟩, nofun⟩
    cases h.1
    exact absurd rfl h.2
  | some e =>
    obtain ⟨hread, hne⟩ := hdrains.left_fails
    have hleft : left ≠ [] := by
      intro hnil
      rw [hnil] at hread
      cases hread
      exact hne rfl
    rw [show fed.result = .error e from hends, if_neg hleft, Option.getD_some]
    refine ⟨rfl, fun e' => ⟨fun h => ?_, fun h => ?_⟩, nofun, fun h => ?_⟩
    · cases h
      exact ⟨rfl, hne⟩
    · rw [Option.some.inj h.1]
    · rw [Option.some.inj h] at hread
      exact readDecoded_ne_panic _ hread

/-- Bytes that no compressor has written. -/
@[reducible] def corrupted : Decompressor where
  decompress _ _ _ := .error .decompressionFailed

/-- The first message and the second prefix are cut, the third is flagged and corrupted. -/
theorem framing_agrees_corrupted :
    let fed := @feedAll corrupted
      { maxMessageSize := 16, encoding := .gzip, acceptedEncodings := { gzip := true } }
      [[0, 0, 0, 0, 2, 104], [105, 0, 0], [0, 0, 0, 1, 0, 0, 0, 1, 7, 0]]
    fed.delivered = [{ payload := [104, 105], wasCompressed := false },
      { payload := [], wasCompressed := false }] ∧
      fed.result = .error (.decompression .decompressionFailed) := by
  obtain ⟨hdelivered, hfails, -⟩ := @framing_agrees corrupted .gzip 16 { gzip := true }
    [[0, 0, 0, 0, 2, 104], [105, 0, 0], [0, 0, 0, 1, 0, 0, 0, 1, 7, 0]] (by decide) (by decide)
  exact ⟨hdelivered.trans (by decide), (hfails _).mpr (by decide)⟩

/-! ### Written messages -/

section Written

variable [Compressor] [Decompressor] {encoder : Encoder}

/-- What was compressed is decompressed, where there is room for it. -/
def Inverse (algorithm : Algorithm) : Prop :=
  ∀ input level encoded limit, Compressor.compress algorithm input level = .ok encoded →
    input.length ≤ limit → Decompressor.decompress algorithm encoded limit = .ok input

lemma decodeMessage_compressed (hinverse : Inverse algorithm) {payload bytes : Bytes}
    {level : Nat} {compressed : Bool} (hroom : payload.length ≤ limit)
    (halgorithm : encoder.algorithm = .identity ∨ encoder.algorithm = algorithm)
    (h : compressAlloc encoder.algorithm payload level = .ok (bytes, compressed)) :
    bytes.length ≤ payload.length ∧
      decodeMessage algorithm limit { compressed := compressed, payload := bytes } =
        .ok { payload := payload, wasCompressed := compressed } := by
  unfold compressAlloc at h
  by_cases hidentity : encoder.algorithm = .identity
  · rw [if_pos hidentity] at h
    cases h
    exact ⟨le_rfl, rfl⟩
  obtain rfl := halgorithm.resolve_left hidentity
  rw [if_neg hidentity] at h
  obtain ⟨-, h⟩ := of_guard h nofun
  cases hcompress : Compressor.compress encoder.algorithm payload level with
  | error e => simp [hcompress] at h
  | ok encoded =>
    rw [hcompress] at h
    dsimp only at h
    split at h
    · cases h
      exact ⟨le_rfl, rfl⟩
    · cases h
      refine ⟨by omega, ?_⟩
      simp [decodeMessage, decompressAlloc, hidentity, hinverse _ _ _ _ hcompress hroom, Except.map]

lemma appendMessage_reads (hinverse : Inverse algorithm) {out out' payload : Bytes}
    (hlimit : encoder.maxMessageSize ≤ limit)
    (halgorithm : encoder.algorithm = .identity ∨ encoder.algorithm = algorithm)
    (h : encoder.appendMessage out payload = .ok out') :
    ∃ word compressed, out' = out ++ word ∧ ∀ rest, readDecoded algorithm limit (word ++ rest) =
      .ok ({ payload := payload, wasCompressed := compressed }, rest) := by
  unfold Encoder.appendMessage at h
  obtain ⟨hfits, h⟩ := of_guard h nofun
  cases hcompress : compressAlloc encoder.algorithm payload encoder.compressionLevel with
  | error e => simp [hcompress] at h
  | ok encoded =>
  obtain ⟨bytes, compressed⟩ := encoded
  obtain ⟨hshort, hdecode⟩ := decodeMessage_compressed hinverse
    (Nat.le_trans (not_lt.mp hfits) hlimit) halgorithm hcompress
  rw [hcompress] at h
  dsimp only at h
  obtain ⟨hsmall, h⟩ := of_guard h nofun
  cases h
  refine ⟨_, compressed, rfl, fun rest => ?_⟩
  have hlen : ofBigEndian (bigEndian 4 bytes.length) = bytes.length := by
    rw [ofBigEndian_bigEndian, Nat.mod_eq_of_lt (by omega)]
  have hprefix : prefixOf limit ((if compressed then 1 else 0) :: bigEndian 4 bytes.length) =
      .ok (compressed, bytes.length) := by
    unfold prefixOf
    rw [drop_succ_cons, drop_zero, hlen]
    cases compressed <;> simp <;> omega
  rw [append_assoc, readDecoded_body (by simp), hprefix]
  dsimp only
  rw [if_pos (by simp), take_left, drop_left, hdecode]
  rfl

lemma written_drains (hinverse : Inverse algorithm) (hlimit : encoder.maxMessageSize ≤ limit)
    (halgorithm : encoder.algorithm = .identity ∨ encoder.algorithm = algorithm)
    {payloads : List Bytes} {out out' : Bytes}
    (h : payloads.foldlM encoder.appendMessage out = .ok out') :
    ∃ word messages, out' = out ++ word ∧ messages.map DecodedMessage.payload = payloads ∧
      Reader.Drains Error.bufferTooShort (readDecoded algorithm limit) word messages none [] := by
  induction payloads generalizing out with
  | nil =>
    cases h
    exact ⟨[], [], (append_nil _).symm, rfl, .stop (readDecoded_short (by decide))⟩
  | cons payload payloads ih =>
    rw [foldlM_cons] at h
    obtain ⟨next, hnext, h⟩ := bind_eq_ok h
    obtain ⟨first, compressed, rfl, hread⟩ := appendMessage_reads hinverse hlimit halgorithm hnext
    obtain ⟨word, messages, rfl, rfl, hdrains⟩ := ih h
    exact ⟨first ++ word, _ :: messages, append_assoc _ _ _, rfl, .step (hread word) hdrains⟩

/-- **Messages are delivered as they were written**, wherever the bytes are cut. -/
theorem written_messages_delivered (hinverse : Inverse algorithm) (accepted : AlgorithmSet)
    (hnegotiated : algorithm ≠ .identity) (haccepted : accepted.contains algorithm = true)
    (halgorithm : encoder.algorithm = .identity ∨ encoder.algorithm = algorithm)
    (hlimit : encoder.maxMessageSize ≤ limit) {payloads chunks : List Bytes}
    (h : payloads.foldlM encoder.appendMessage [] = .ok chunks.flatten) :
    let decoder : Decoder :=
      { maxMessageSize := limit, encoding := algorithm, acceptedEncodings := accepted }
    let fed := decoder.feedAll chunks
    fed.delivered.map (·.payload) = payloads ∧ fed.result = .ok () ∧
      fed.decoder.finish.1 = .ok () := by
  intro decoder fed
  have hready : decoder.Ready algorithm limit := ⟨rfl, rfl, hnegotiated, haccepted, rfl⟩
  have hholds : decoder.Holds [] := .header (Nat.zero_lt_succ 4) rfl rfl
  obtain ⟨word, messages, hword, hpayloads, hwritten⟩ :=
    written_drains hinverse hlimit halgorithm h
  obtain ⟨failure, left, hdrains, hends⟩ := (hready.feedAll hholds chunks).reads
  rw [hword] at hdrains
  obtain ⟨hdelivered, rfl, rfl⟩ := hdrains.unique hwritten
  obtain ⟨hresult, hnext, hdone⟩ := hends
  exact ⟨hdelivered ▸ hpayloads, hresult, (hdone.finish_iff hnext).mpr rfl⟩

end Written

/-- A compressor that stores its input behind a header. -/
@[reducible] def storing : Compressor where
  compress _ input _ := .ok (replicate 18 0 ++ input)

@[reducible] def unstoring : Decompressor where
  decompress _ input _ := .ok (input.drop 18)

/-- The second message is empty, and both prefixes are cut. -/
theorem written_messages_delivered_stored :
    let fed := @feedAll unstoring
      { maxMessageSize := 16, encoding := .gzip, acceptedEncodings := { gzip := true } }
      [[0, 0, 0], [0, 2, 104, 105, 0], [0, 0, 0, 0]]
    fed.delivered.map (·.payload) = [[104, 105], []] ∧ fed.result = .ok () ∧
      fed.decoder.finish.1 = .ok () := by
  refine @written_messages_delivered .gzip 16 storing unstoring
    { algorithm := .gzip, maxMessageSize := 16 } ?_ { gzip := true } (by decide) (by decide)
    (.inr rfl) (by decide) [[104, 105], []] [[0, 0, 0], [0, 2, 104, 105, 0], [0, 0, 0, 0]]
    (by decide)
  intro input level encoded limit hcompress _
  cases hcompress
  rfl

end Decoder

end Netz.Grpc
