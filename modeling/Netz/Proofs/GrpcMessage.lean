/-
gRPC messages, one after the other.

One message is read off the front of a string by a reader that fails with `bufferTooShort` where
there is too little.  The iterator reads as often as it can.
-/
import Netz.Grpc.Stream
import Netz.Lib.Reader

namespace Netz.Grpc

open Lib Reader
open List hiding take

/-! ### One message -/

/-- What the five bytes in front of a payload say: the flag, and the length. -/
def prefixOf (maxMessageSize : Nat) (bytes : Bytes) : Except Error (Bool × Nat) :=
  if 1 < bytes.getD 0 0 then .error .invalidCompressedFlag
  else if maxMessageSize < ofBigEndian (bytes.drop 1) then .error .grpcMessageTooLarge
  else .ok (bytes.getD 0 0 == 1, ofBigEndian (bytes.drop 1))

def readMessage (maxMessageSize : Nat) : Reader Error UInt8 Message := do
  let bytes ← take .bufferTooShort 5
  let (compressed, len) ← Reader.check (prefixOf maxMessageSize bytes)
  let payload ← take .bufferTooShort len
  return { compressed := compressed, payload := payload }

lemma incremental_readMessage (maxMessageSize : Nat) :
    Reader.Incremental Error.bufferTooShort (readMessage maxMessageSize) :=
  (Reader.Incremental.take 5).bind fun _ => (Reader.Incremental.check _).bind fun _ =>
    (Reader.Incremental.take _).bind fun _ => Reader.Incremental.done _

lemma readMessage_lt {maxMessageSize : Nat} {input rest : Bytes} {message : Message}
    (h : readMessage maxMessageSize input = .ok (message, rest)) :
    rest = input.drop (5 + message.payload.length) ∧ 5 + message.payload.length ≤ input.length := by
  obtain ⟨bytes, mid, htake, h⟩ := bind_ok_iff.mp h
  obtain ⟨⟨compressed, len⟩, mid', hhead, h⟩ := bind_ok_iff.mp h
  obtain ⟨payload, last, hpay, h⟩ := bind_ok_iff.mp h
  cases h
  unfold take at htake hpay
  split at htake
  case isFalse => cases htake
  cases htake
  have hmid : mid' = input.drop 5 := by
    cases hp : prefixOf maxMessageSize (input.take 5) with
    | error e =>
      rw [hp] at hhead
      cases hhead
    | ok read =>
      rw [hp] at hhead
      cases hhead
      rfl
  subst hmid
  split at hpay
  case isFalse => cases hpay
  rename_i hlen
  cases hpay
  rw [List.length_drop] at hlen
  rw [List.length_take_of_le (by rw [List.length_drop]; exact hlen), List.drop_drop]
  exact ⟨rfl, by omega⟩

section Decoding

variable [Decompressor]

/-- The content of a message. -/
def decodeMessage (encoding : Algorithm) (maxMessageSize : Nat) (message : Message) :
    Except Error DecodedMessage :=
  if message.compressed then
    (decompressAlloc encoding message.payload maxMessageSize).map
      fun bytes => { payload := bytes, wasCompressed := true }
  else .ok { payload := message.payload, wasCompressed := false }

def readDecoded (encoding : Algorithm) (maxMessageSize : Nat) :
    Reader Error UInt8 DecodedMessage := do
  let message ← readMessage maxMessageSize
  Reader.check (decodeMessage encoding maxMessageSize message)

lemma incremental_readDecoded (encoding : Algorithm) (maxMessageSize : Nat) :
    Reader.Incremental Error.bufferTooShort (readDecoded encoding maxMessageSize) :=
  (incremental_readMessage maxMessageSize).bind fun _ => Reader.Incremental.check _

lemma decodeMessage_error {encoding : Algorithm} {maxMessageSize : Nat} {message : Message}
    {e : Error} (h : decodeMessage encoding maxMessageSize message = .error e) :
    ∃ reason, e = .decompression reason := by
  unfold decodeMessage decompressAlloc at h
  repeat' split at h
  all_goals cases h
  all_goals exact ⟨_, rfl⟩

end Decoding

variable {maxMessageSize : Nat}

lemma readMessage_short {input : Bytes} (h : input.length < 5) :
    readMessage maxMessageSize input = .error .bufferTooShort := by
  unfold readMessage
  rw [bind_run]
  unfold take
  rw [if_neg (by omega)]

lemma readMessage_body {bytes rest : Bytes} (h : bytes.length = 5) :
    readMessage maxMessageSize (bytes ++ rest) =
      match prefixOf maxMessageSize bytes with
      | .error e => .error e
      | .ok (compressed, len) =>
        if len ≤ rest.length then
          .ok ({ compressed := compressed, payload := rest.take len }, rest.drop len)
        else .error .bufferTooShort := by
  unfold readMessage
  rw [bind_run]
  unfold take
  rw [if_pos (by rw [List.length_append]; omega), List.take_left' h, List.drop_left' h]
  dsimp only
  rw [bind_run]
  cases prefixOf maxMessageSize bytes with
  | error e => rfl
  | ok read =>
    dsimp only [Reader.check]
    rw [pure_run]
    dsimp only
    rw [bind_run]
    by_cases hlen : read.2 ≤ rest.length
    · rw [if_pos hlen, if_pos hlen]
      rfl
    · rw [if_neg hlen, if_neg hlen]

lemma prefixOf_ok {maxMessageSize len : Nat} {bytes : Bytes} {compressed : Bool}
    (h : prefixOf maxMessageSize bytes = .ok (compressed, len)) :
    compressed = (bytes.getD 0 0 == 1) := by
  unfold prefixOf at h
  obtain ⟨-, h⟩ := of_guard h nofun
  obtain ⟨-, h⟩ := of_guard h nofun
  cases h
  rfl

lemma prefixOf_error {bytes : Bytes} {e : Error} (h : prefixOf maxMessageSize bytes = .error e) :
    e = .invalidCompressedFlag ∨ e = .grpcMessageTooLarge := by
  unfold prefixOf at h
  by_cases hbad : 1 < bytes.getD 0 0
  · rw [if_pos hbad] at h
    cases h
    exact .inl rfl
  rw [if_neg hbad] at h
  by_cases hlarge : maxMessageSize < ofBigEndian (bytes.drop 1)
  · rw [if_pos hlarge] at h
    cases h
    exact .inr rfl
  · rw [if_neg hlarge] at h
    cases h

/-! ### The iterator -/

section Iterator

lemma MessageIterator.next_eq {it : MessageIterator} (h : it.offset ≤ it.input.length) :
    it.next = if it.input.drop it.offset = [] then (.ok none, it) else
        match readMessage it.maxMessageSize (it.input.drop it.offset) with
        | .error e => (.error e, it)
        | .ok (message, _) =>
          (.ok (some message), { it with offset := it.offset + 5 + message.payload.length }) := by
  unfold MessageIterator.next
  by_cases hend : it.offset = it.input.length
  · rw [if_pos hend, if_pos (by rw [hend, drop_length])]
  have hmore : ¬it.input.drop it.offset = [] := by
    rw [drop_eq_nil_iff]
    omega
  rw [if_neg hend, if_neg hmore]
  by_cases hfive : it.input.length - it.offset < 5
  · rw [if_pos hfive, readMessage_short (by rw [length_drop]; exact hfive)]
  rw [if_neg hfive]
  have hsplit : it.input.drop it.offset =
      (it.input.drop it.offset).take 5 ++ it.input.drop (it.offset + 5) := by
    rw [← drop_drop, take_append_drop]
  have hlength : ((it.input.drop it.offset).take 5).length = 5 := by
    rw [length_take, length_drop]
    omega
  rw [hsplit, readMessage_body hlength]
  have hflag : ((it.input.drop it.offset).take 5).getD 0 0 = it.input.getD it.offset 0 := by
    simp [getElem?_drop]
  have hlen : ((it.input.drop it.offset).take 5).drop 1 =
      (it.input.drop (it.offset + 1)).take 4 := by
    rw [drop_take, drop_drop]
  unfold prefixOf
  rw [hflag, hlen]
  by_cases hbad : 1 < it.input.getD it.offset 0
  · rw [if_pos hbad, if_pos hbad]
  rw [if_neg hbad, if_neg hbad]
  by_cases hlarge : it.maxMessageSize < ofBigEndian ((it.input.drop (it.offset + 1)).take 4)
  · rw [if_pos hlarge, if_pos hlarge]
  rw [if_neg hlarge, if_neg hlarge]
  dsimp only
  rw [length_drop]
  by_cases hshort : it.input.length <
      it.offset + 5 + ofBigEndian ((it.input.drop (it.offset + 1)).take 4)
  · rw [if_pos hshort, if_neg (by omega)]
  rw [if_neg hshort, if_pos (by omega)]
  dsimp only
  rw [length_take, length_drop, Nat.min_eq_left (by omega)]

variable [Decompressor]

/-- Calls of `next` up to the end or the first failure, and the messages before that. -/
def MessageIterator.iterate (encoding : Algorithm) :
    Nat → MessageIterator → List DecodedMessage × Option Error
  | 0, _ => ([], some .panic)
  | rounds + 1, it =>
    match it.next with
    | (.error e, _) => ([], some e)
    | (.ok none, _) => ([], none)
    | (.ok (some message), next) =>
      match decodeMessage encoding it.maxMessageSize message with
      | .error e => ([], some e)
      | .ok decoded =>
        let (more, ending) := next.iterate encoding rounds
        (decoded :: more, ending)

/-- **The iterator reads as often as it can.** -/
theorem MessageIterator.iterate_drains (encoding : Algorithm) {rounds : Nat} {it : MessageIterator}
    (h : it.offset ≤ it.input.length) (hfuel : it.input.length - it.offset < rounds) :
    ∃ messages failure left,
      Reader.Drains Error.bufferTooShort (readDecoded encoding it.maxMessageSize)
        (it.input.drop it.offset) messages failure left ∧
      it.iterate encoding rounds =
        (messages, if left = [] then none else some (failure.getD .bufferTooShort)) := by
  induction rounds generalizing it with
  | zero => omega
  | succ rounds ih =>
    unfold MessageIterator.iterate
    rw [MessageIterator.next_eq h]
    by_cases hend : it.input.drop it.offset = []
    · rw [hend]
      exact ⟨[], none, [], .stop rfl, rfl⟩
    rw [if_neg hend]
    cases hread : readMessage it.maxMessageSize (it.input.drop it.offset) with
    | error e =>
      have hdec : readDecoded encoding it.maxMessageSize (it.input.drop it.offset) =
          .error e := bind_error_iff.mpr (.inl hread)
      by_cases he : e = .bufferTooShort
      · rw [he] at hdec ⊢
        exact ⟨[], none, _, .stop hdec, by rw [if_neg hend]; rfl⟩
      · exact ⟨[], some e, _, .fail hdec he, by rw [if_neg hend]; rfl⟩
    | ok read =>
      obtain ⟨message, rest⟩ := read
      obtain ⟨hrest, hlen⟩ := readMessage_lt hread
      rw [length_drop] at hlen
      rw [drop_drop] at hrest
      have hdec : readDecoded encoding it.maxMessageSize (it.input.drop it.offset) =
          (Reader.check (decodeMessage encoding it.maxMessageSize message)) rest := by
        simp [bind_run, hread, readDecoded]
      dsimp only
      cases hmsg : decodeMessage encoding it.maxMessageSize message with
      | error e =>
        rw [hmsg] at hdec
        obtain ⟨reason, rfl⟩ := decodeMessage_error hmsg
        exact ⟨[], some _, _, .fail hdec nofun, by rw [if_neg hend]; rfl⟩
      | ok decoded =>
        rw [hmsg] at hdec
        obtain ⟨messages, failure, left, hdrains, hiterate⟩ :=
          @ih { it with offset := it.offset + 5 + message.payload.length }
            (by show it.offset + 5 + message.payload.length ≤ it.input.length; omega)
            (by
              show it.input.length - (it.offset + 5 + message.payload.length) < rounds
              omega)
        rw [hiterate]
        refine ⟨decoded :: messages, failure, left, .step hdec ?_, rfl⟩
        rw [hrest, ← Nat.add_assoc]
        exact hdrains

end Iterator

end Netz.Grpc
