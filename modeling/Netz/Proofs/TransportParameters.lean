/-
Transport parameters round trip.

The encoder puts one word after the other, and the decoder walks the same words: each word
is a parameter left out or one that is read back (`encodeParameter_coded`), and each
identifier is written at most once, so the duplicate check lets all of them pass.  In the
end every parameter agrees with the one encoded, those that were left out because they still
have their default.  For the duplicate check itself only the identifiers on the wire matter:
`parseParameters_duplicate` holds of any bytes, with known and unknown parameters.
-/
import Netz.Proofs.TransportFields

namespace Netz.Quic

open Lib Lib.Reader List Varint
open TransportParameterId hiding all

/-! ### Words of the wire format -/

variable {value word bytes mid rest suffix : Bytes} {id fuel : Nat} {b : UInt8}
  {ps : List (Nat × Bytes)} {seen : List Nat} {info : VersionInformation}

lemma reads_readValue {m : Nat} (h : Varint.length value.length = .ok m) :
    Reads readValue (encodeWithLen value.length m ++ value) value :=
  (reads_decodeUsize h).bind (reads_readSlice value)

lemma Written.front (h : Written id value word) (rest : Bytes) :
    ∃ b tail mid, word ++ rest = b :: tail ∧ decode (b :: tail) = .ok (id, mid) ∧
      readValue mid = .ok (value, rest) := by
  obtain ⟨k, m, hid, hlen, hword⟩ := h
  obtain ⟨b, tail, hfirst, -⟩ := encodeWithLen_spec hid
  have happend : word ++ rest = encodeWithLen id k ++
      ((encodeWithLen value.length m ++ value) ++ rest) := by
    rw [hword, append_assoc]
  refine ⟨b, tail ++ ((encodeWithLen value.length m ++ value) ++ rest),
    (encodeWithLen value.length m ++ value) ++ rest, ?_, ?_, ?_⟩
  · rw [happend, hfirst]
    rfl
  · have hdec := reads_encodeWithLen hid
      ((encodeWithLen value.length m ++ value) ++ rest)
    rw [hfirst] at hdec
    exact hdec
  · exact reads_readValue hlen rest

lemma extends_decode : Extends decode :=
  (extends_peek _).bind (fun _ => (extends_take _ _).bind (fun _ => Extends.done _))

lemma extends_decodeUsize : Extends decodeUsize := by
  refine extends_decode.bind (fun value => ?_)
  unfold Reader.check
  cases usizeFromVarint value with
  | ok n => exact Extends.done n
  | error e =>
    intro input a rest suffix h
    cases h

lemma extends_readValue : Extends readValue :=
  extends_decodeUsize.bind (fun _ => extends_take _ _)

/-! ### The three loops -/

lemma splitParameters_cons (h : splitParameters (fuel + 1) (b :: bytes) = .ok ps) :
    ∃ id value mid rest ps', decode (b :: bytes) = .ok (id, mid) ∧
      readValue mid = .ok (value, rest) ∧ splitParameters fuel rest = .ok ps' ∧
      ps = (id, value) :: ps' := by
  obtain ⟨⟨id, mid⟩, hid, h⟩ := bind_eq_ok h
  obtain ⟨⟨value, rest⟩, hvalue, h⟩ := bind_eq_ok h
  obtain ⟨ps', hps, h⟩ := bind_eq_ok h
  cases h
  exact ⟨id, value, mid, rest, ps', hid, hvalue, hps, rfl⟩

lemma splitParameters_of_cons (hid : decode (b :: bytes) = .ok (id, mid))
    (hvalue : readValue mid = .ok (value, rest)) (hps : splitParameters fuel rest = .ok ps) :
    splitParameters (fuel + 1) (b :: bytes) = .ok ((id, value) :: ps) := by
  rw [splitParameters, hid]
  show (readValue mid >>= fun p => splitParameters fuel p.2 >>= fun parameters =>
    pure ((id, p.1) :: parameters)) = _
  rw [hvalue]
  show (splitParameters fuel rest >>= fun parameters => pure ((id, value) :: parameters)) = _
  rw [hps]
  rfl

lemma countParameters_of_split (h : splitParameters fuel bytes = .ok ps) :
    countParameters fuel bytes = .ok ps.length := by
  induction fuel generalizing bytes ps with
  | zero =>
    cases bytes with
    | nil =>
      cases h
      rfl
    | cons b bytes => cases h
  | succ fuel ih =>
    cases bytes with
    | nil =>
      cases h
      rfl
    | cons b bytes =>
      obtain ⟨id, value, mid, rest, ps', hid, hvalue, hps, rfl⟩ := splitParameters_cons h
      rw [countParameters, hid]
      show (readValue mid >>= fun p => countParameters fuel p.2 >>= fun n => pure (n + 1)) = _
      rw [hvalue]
      show (countParameters fuel rest >>= fun n => pure (n + 1)) = _
      rw [ih hps]
      rfl

variable {params : TransportParameters} {source : TransportParameterSource}

lemma parseParameters_of_cons
    (hid : decode (b :: bytes) = .ok (id, mid)) (hvalue : readValue mid = .ok (value, rest))
    (hseen : id ∉ seen) :
    parseParameters source (fuel + 1) (b :: bytes) seen params
      = (parseKnown source id value params >>= fun params' =>
          parseParameters source fuel rest (seen ++ [id]) params') := by
  rw [parseParameters, hid]
  show (if id ∈ seen then throw Error.duplicateTransportParameter else
    readValue mid >>= fun p => parseKnown source id p.1 params >>= fun params' =>
      parseParameters source fuel p.2 (seen ++ [id]) params') = _
  rw [if_neg hseen, hvalue]
  rfl

lemma parseParameters_of_seen (hid : decode (b :: bytes) = .ok (id, mid)) (hseen : id ∈ seen) :
    parseParameters source (fuel + 1) (b :: bytes) seen params
      = .error .duplicateTransportParameter := by
  rw [parseParameters, hid]
  show (if id ∈ seen then throw Error.duplicateTransportParameter else
    readValue mid >>= fun p => parseKnown source id p.1 params >>= fun params' =>
      parseParameters source fuel p.2 (seen ++ [id]) params') = _
  rw [if_pos hseen]
  rfl

/-! ### Duplicates -/

/-- **An identifier that was seen, or is still to come before `suffix`, stops the decoder when
`suffix` repeats it.** -/
theorem parseParameters_duplicate (hsuffix : decode suffix = .ok (id, rest)) :
    ∀ {fuel fuel' : Nat} {bytes : Bytes} {ps : List (Nat × Bytes)} {seen : List Nat}
      {params : TransportParameters}, splitParameters fuel bytes = .ok ps →
      id ∈ seen ∨ id ∈ ps.map Prod.fst →
      ∃ e, parseParameters source fuel' (bytes ++ suffix) seen params = .error e := by
  intro fuel
  obtain ⟨b, tail, rfl⟩ : ∃ b tail, suffix = b :: tail := by
    cases suffix with
    | nil => cases hsuffix
    | cons b tail => exact ⟨b, tail, rfl⟩
  induction fuel with
  | zero =>
    intro fuel' bytes ps seen params hsplit hid
    cases bytes with
    | cons c bytes => cases hsplit
    | nil =>
      cases hsplit
      have hseen : id ∈ seen := hid.resolve_right (by simp)
      cases fuel' with
      | zero => exact ⟨_, rfl⟩
      | succ fuel' => exact ⟨_, parseParameters_of_seen hsuffix hseen⟩
  | succ fuel ih =>
    intro fuel' bytes ps seen params hsplit hid
    cases fuel' with
    | zero => cases bytes <;> exact ⟨_, rfl⟩
    | succ fuel' =>
      cases bytes with
      | nil =>
        cases hsplit
        exact ⟨_, parseParameters_of_seen hsuffix (hid.resolve_right (by simp))⟩
      | cons c bytes =>
        obtain ⟨id', value, mid, rest', ps', hid', hvalue, hps, rfl⟩ :=
          splitParameters_cons hsplit
        have hdec := extends_decode _ _ _ (b :: tail) hid'
        have hread := extends_readValue _ _ _ (b :: tail) hvalue
        by_cases hseen : id' ∈ seen
        · exact ⟨_, parseParameters_of_seen hdec hseen⟩
        have hround : parseParameters source (fuel' + 1) (c :: (bytes ++ b :: tail)) seen
            params = (parseKnown source id' value params >>= fun params' =>
              parseParameters source fuel' (rest' ++ b :: tail) (seen ++ [id']) params') :=
          parseParameters_of_cons hdec hread hseen
        rw [cons_append, hround]
        cases parseKnown source id' value params with
        | error e => exact ⟨e, rfl⟩
        | ok params' =>
          refine ih hps ?_
          rcases hid with hid | hid
          · exact .inl (mem_append_left _ hid)
          rw [map_cons, mem_cons] at hid
          rcases hid with rfl | hid
          · exact .inl (by simp)
          · exact .inr hid

lemma parseTransportParametersTyped_duplicate
    (hps : parseTransportParameters bytes = .ok ps) (hid : id ∈ ps.map Prod.fst)
    (hsuffix : decode suffix = .ok (id, rest)) :
    ∃ e, parseTransportParametersTyped (bytes ++ suffix) source = .error e := by
  unfold parseTransportParametersTyped
  cases countParameters (bytes ++ suffix).length (bytes ++ suffix) with
  | error e => exact ⟨e, rfl⟩
  | ok n =>
    have hfail : ∃ e, parseParameters source (bytes ++ suffix).length (bytes ++ suffix) [] {}
        = .error e := parseParameters_duplicate hsuffix hps (.inr hid)
    obtain ⟨e, he⟩ := hfail
    refine ⟨e, ?_⟩
    rw [he]
    rfl

/-! ### The encoded words -/

/-- **The decoder walks the words of the encoder.**  The parameters that are still to come have
their defaults and were not seen; afterwards they agree with those encoded, and the others are
as before. -/
theorem parseParameters_encoded
    (hvalid : validateTransportParameters params source = .ok ()) {ids : List TransportParameterId}
    (hids : ids.Nodup) (h : encodeParameters params ids = .ok bytes) (hfuel : bytes.length ≤ fuel)
    {acc : TransportParameters} (hseen : ∀ p ∈ ids, p.toInt ∉ seen)
    (hacc : ∀ p ∈ ids, p.Agrees acc {}) :
    (∃ ps, splitParameters fuel bytes = .ok ps) ∧
      ∃ acc', parseParameters source fuel bytes seen acc = .ok acc' ∧
        (∀ p ∈ ids, p.Agrees acc' params) ∧ ∀ p, p ∉ ids → p.Agrees acc' acc := by
  induction ids generalizing bytes fuel seen acc with
  | nil =>
    cases h
    exact ⟨⟨[], by cases fuel <;> rfl⟩, acc, by cases fuel <;> rfl, by simp,
      fun p _ => Agrees.refl acc p⟩
  | cons id ids ih =>
    rw [nodup_cons] at hids
    obtain ⟨word, hword, h⟩ := bind_eq_ok h
    obtain ⟨words, hwords, h⟩ := bind_eq_ok h
    cases h
    rcases encodeParameter_coded hvalid id hword with ⟨rfl, hdef⟩ | ⟨value, hcoded, hparse⟩
    · -- left out: the default is what was encoded
      obtain ⟨hsplit, acc', hrun, hin, hout⟩ := ih hids.2 hwords hfuel
        (fun p hp => hseen p (mem_cons_of_mem _ hp))
        (fun p hp => hacc p (mem_cons_of_mem _ hp))
      refine ⟨hsplit, acc', hrun, ?_, fun p hp => hout p (fun h => hp (mem_cons_of_mem _ h))⟩
      intro p hp
      rcases mem_cons.mp hp with rfl | hp
      · exact (hout p hids.1).trans ((hacc p (by simp)).trans hdef)
      · exact hin p hp
    obtain ⟨acc₁, hstore, hself, hothers⟩ := hparse acc
    have hpos := hcoded.length_pos
    obtain ⟨b, tail, mid, happend, hdec, hread⟩ := hcoded.front words
    rw [length_append] at hfuel
    obtain ⟨fuel, rfl⟩ : ∃ n, fuel = n + 1 := ⟨fuel - 1, by omega⟩
    have hnew : id.toInt ∉ seen := hseen id (by simp)
    have hne : ∀ p ∈ ids, p ≠ id := fun p hp hpid => hids.1 (hpid ▸ hp)
    have hseen' : ∀ p ∈ ids, p.toInt ∉ seen ++ [id.toInt] := by
      intro p hp hmem
      rcases mem_append.mp hmem with hmem | hmem
      · exact hseen p (mem_cons_of_mem _ hp) hmem
      · exact hne p hp (toInt_inj (mem_singleton.mp hmem))
    have hacc' : ∀ p ∈ ids, p.Agrees acc₁ {} :=
      fun p hp => (hothers p (hne p hp)).trans (hacc p (mem_cons_of_mem _ hp))
    have hlast : words.length ≤ fuel := by omega
    obtain ⟨⟨ps, hsplit⟩, acc', hrun, hin, hout⟩ := ih hids.2 hwords hlast hseen' hacc'
    rw [happend]
    refine ⟨⟨_, splitParameters_of_cons hdec hread hsplit⟩, acc', ?_, ?_, ?_⟩
    · rw [parseParameters_of_cons hdec hread hnew, parseKnown, ofInt_toInt]
      show (parseParameter source value acc id >>= _) = _
      rw [hstore]
      exact hrun
    · intro p hp
      rcases mem_cons.mp hp with rfl | hp
      · exact (hout p hids.1).trans hself
      · exact hin p hp
    intro p hp
    rw [mem_cons, not_or] at hp
    exact (hout p hp.2).trans (hothers p hp.1)

/-- **What is encoded for a role is decoded to the same parameters, and a second occurrence of
any of its identifiers is an error**, whatever stands behind the repeated identifier. -/
theorem transport_parameters_round_trip {params : TransportParameters}
    {source : TransportParameterSource} {bytes : Bytes}
    (h : encodeTransportParametersForSource params source = .ok bytes) :
    parseTransportParametersTyped bytes source = .ok params ∧
      ∃ ps, parseTransportParameters bytes = .ok ps ∧
        ∀ p ∈ ps, ∀ suffix rest, decode suffix = .ok (p.1, rest) →
          ∃ e, parseTransportParametersTyped (bytes ++ suffix) source = .error e := by
  obtain ⟨_, hvalid, h⟩ := bind_eq_ok h
  have hstart : ∀ p ∈ TransportParameterId.all, p.toInt ∉ ([] : List Nat) := fun _ _ => by simp
  have hdefault : ∀ p ∈ TransportParameterId.all, p.Agrees ({} : TransportParameters) {} :=
    fun p _ => TransportParameterId.Agrees.refl {} p
  obtain ⟨⟨ps, hps⟩, acc, hrun, hin, -⟩ := parseParameters_encoded hvalid (by decide) h
    le_rfl hstart hdefault
  have hacc : acc = params :=
    TransportParameterId.agrees_ext (fun p => hin p (TransportParameterId.mem_all p))
  refine ⟨?_, ps, hps, fun p hp suffix rest hsuffix =>
    parseTransportParametersTyped_duplicate hps (mem_map_of_mem hp) hsuffix⟩
  unfold parseTransportParametersTyped
  rw [countParameters_of_split hps, hrun, hacc]
  show (validateTransportParameters params source >>= fun _ => pure params) = _
  rw [hvalid]
  rfl

/-- A client with an idle timeout, a source identifier and the greased bit. -/
theorem client_parameters_round_trip :
    parseTransportParametersTyped [1, 1, 30, 15, 2, 170, 187, 106, 178, 0] .client
        = .ok { maxIdleTimeout := 30, initialSourceConnectionId := some [170, 187],
                greaseQuicBit := true } ∧
      ∃ ps, parseTransportParameters [1, 1, 30, 15, 2, 170, 187, 106, 178, 0] = .ok ps ∧
        ∀ p ∈ ps, ∀ suffix rest, decode suffix = .ok (p.1, rest) →
          ∃ e, parseTransportParametersTyped
            ([1, 1, 30, 15, 2, 170, 187, 106, 178, 0] ++ suffix) .client = .error e :=
  transport_parameters_round_trip (by decide)

/-! ### Appending to a list

A parameter is appended whole or not at all.  After the checks at the front only a few values can
still be refused, and growing the list can fail for each of them. -/

lemma Written.ne_nil (h : Written id value word) : word ≠ [] :=
  ne_nil_of_length_pos h.length_pos

lemma header_of_le (p : TransportParameterId) {valueLen : Nat} (h : valueLen ≤ varintMax) :
    ∃ header, transportParameterHeader p.toInt valueLen = .ok header := by
  have hid : p.toInt ≤ varintMax := by cases p <;> decide
  obtain ⟨m, hm⟩ := length_of_le hid
  obtain ⟨n, hn⟩ := length_of_le h
  have hm8 := (length_ok hm).2
  have hn8 := (length_ok hn).2
  unfold varintMax at h
  simp [transportParameterHeader, hm, hn, addWireLen, checkedAdd, bind, Except.bind, pure,
    Except.pure, show m + n ≤ maxU64 by unfold maxU64; omega,
    show m + n + valueLen ≤ maxU64 by unfold maxU64; omega]

lemma encodeTransportParameter_of_le (p : TransportParameterId) (h : value.length ≤ varintMax) :
    ∃ word, encodeTransportParameter p.toInt value = .ok word ∧ word ≠ [] := by
  obtain ⟨header, hhdr⟩ := header_of_le p h
  have hok : encodeTransportParameter p.toInt value
      = .ok (appendTransportParameterHeader p.toInt header ++ value) := by
    simp [hhdr, encodeTransportParameter]
  exact ⟨_, hok, (written_of_encode hok).ne_nil⟩

variable {p : TransportParameterId}

lemma encodeInteger_of_valid {value : Nat} (h : validateTransportInteger p value = .ok ()) :
    ∃ word, encodeIntegerTransportParameter p value = .ok word ∧ word ≠ [] := by
  have hle : value ≤ varintMax := by
    by_contra hgt
    unfold validateTransportInteger at h
    rw [if_pos (by omega)] at h
    cases h
  obtain ⟨n, hn⟩ := length_of_le hle
  obtain ⟨header, hhdr⟩ := header_of_le p
    (show n ≤ varintMax by have := (length_ok hn).2; unfold varintMax; omega)
  have hok : encodeIntegerTransportParameter p value
      = .ok (appendTransportParameterHeader p.toInt header ++ encodeWithLen value n) := by
    unfold encodeIntegerTransportParameter
    rw [h, hn]
    show (transportParameterHeader p.toInt n >>= _) = _
    rw [hhdr]
    rfl
  obtain ⟨bytes, hwritten, -⟩ := encodeInteger_ok hok
  exact ⟨_, hok, hwritten.ne_nil⟩

lemma encodeConnectionId_of_valid {cid : Bytes}
    (h : validateTransportConnectionId cid false = .ok ()) :
    ∃ word, encodeConnectionId p cid = .ok word ∧ word ≠ [] := by
  have hle : cid.length ≤ 20 := by
    by_contra hgt
    unfold validateTransportConnectionId at h
    rw [if_pos (by omega)] at h
    cases h
  unfold encodeConnectionId
  rw [h]
  exact encodeTransportParameter_of_le p (by unfold varintMax; omega)

lemma encodePreferred_of_valid {preferred : PreferredAddress}
    (h : validatePreferredAddress preferred = .ok ()) :
    ∃ word, encodePreferredAddressTransportParameter preferred = .ok word ∧ word ≠ [] := by
  have hle : preferred.connectionId.length ≤ 20 := by
    by_contra hgt
    unfold validatePreferredAddress validateTransportConnectionId at h
    simp [show 20 < preferred.connectionId.length by omega] at h
  obtain ⟨header, hhdr⟩ := header_of_le .preferredAddress
    (show 41 + preferred.connectionId.length ≤ varintMax by unfold varintMax; omega)
  have hsum : addWireLen 41 preferred.connectionId.length
      = .ok (41 + preferred.connectionId.length) := by
    simp [addWireLen, checkedAdd, show 41 + preferred.connectionId.length ≤ maxU64 by
      unfold maxU64; omega]
  have hok : ∃ word, encodePreferredAddressTransportParameter preferred = .ok word := by
    unfold encodePreferredAddressTransportParameter
    rw [h, hsum]
    show ∃ word, (transportParameterHeader _ (41 + _) >>= _) = .ok word
    simp [hhdr]
  obtain ⟨word, hok⟩ := hok
  obtain ⟨bytes, hwritten, -⟩ := encodePreferred_ok hok
  exact ⟨word, hok, hwritten.ne_nil⟩

lemma encodeVersionInformation_of_valid (h : validateVersionInformation info = .ok ())
    (hle : 4 + info.availableVersionsWire.length ≤ varintMax) :
    ∃ word, encodeVersionInformationTransportParameter info = .ok word ∧ word ≠ [] := by
  obtain ⟨header, hhdr⟩ := header_of_le .versionInformation hle
  have hok : ∃ word, encodeVersionInformationTransportParameter info = .ok word := by
    unfold encodeVersionInformationTransportParameter
    rw [h, if_pos (by unfold varintMax at hle; unfold maxU64; omega)]
    show ∃ word, (transportParameterHeader _ (4 + _) >>= _) = .ok word
    simp [hhdr]
  obtain ⟨word, hok⟩ := hok
  obtain ⟨bytes, hwritten, -⟩ := encodeVersionInformation_ok hok
  exact ⟨word, hok, hwritten.ne_nil⟩

lemma versionInformation_le (h : encodeVersionInformationTransportParameter info = .ok word) :
    4 + info.availableVersionsWire.length ≤ varintMax := by
  obtain ⟨_, -, h⟩ := bind_eq_ok h
  obtain ⟨valueLen, hlen, h⟩ := bind_eq_ok h
  obtain ⟨header, hhdr, -⟩ := bind_eq_ok h
  have hle := (length_ok (transportParameterHeader_ok hhdr).2.1).1
  split at hlen
  · cases hlen
    exact hle
  · cases hlen

lemma encodeParameter_absent
    (h : params.present p = false) : encodeParameter params p = .ok [] := by
  cases p <;> simp [TransportParameters.present] at h <;>
    simp [encodeParameter, encodeUnlessDefault, encodeIfSome, encodeFlag, h]

/-- An out-of-range value is present, and refused when it is its turn. -/
theorem encodeParameter_outOfRange
    (h : params.OutOfRange p) : ∀ word, encodeParameter params p ≠ .ok word := by
  have hint : ∀ {q : TransportParameterId} {value : Nat},
      validateTransportInteger q value = .error .invalidTransportParameter → value ≠ 0 →
      ∀ word, encodeUnlessDefault q value 0 ≠ .ok word := by
    intro q value hbad hne word
    simp [encodeUnlessDefault, hne, encodeIntegerTransportParameter, hbad, bind, Except.bind]
  cases p with
  | versionInformation =>
    obtain ⟨info, hinfo, hlt⟩ := h
    intro word hok
    have hle := versionInformation_le (show
      encodeVersionInformationTransportParameter info = .ok word by
        simpa [encodeParameter, hinfo, encodeIfSome] using hok)
    omega
  | maxIdleTimeout =>
    refine hint ?_ (by unfold TransportParameters.OutOfRange at h; omega)
    unfold TransportParameters.OutOfRange at h
    simp [validateTransportInteger, h]
  | initialMaxData | initialMaxStreamDataBidiLocal | initialMaxStreamDataBidiRemote
  | initialMaxStreamDataUni =>
    refine hint ?_ (by unfold TransportParameters.OutOfRange at h; omega)
    unfold TransportParameters.OutOfRange at h
    simp [validateTransportInteger, h]
  | _ => exact absurd h id

/-- Behind the checks at the front, everything else that is present is written. -/
theorem encodeParameter_written (hvalid : validateTransportParameters params source = .ok ())
    (hpresent : params.present p = true) (hrange : ¬ params.OutOfRange p) :
    ∃ word, encodeParameter params p = .ok word ∧ word ≠ [] := by
  have hdef : ∀ {q : TransportParameterId} {value default : Nat}, (value != default) = true →
      validateTransportInteger q value = .ok () →
      ∃ word, encodeUnlessDefault q value default = .ok word ∧ word ≠ [] := by
    intro q value default hne hok
    unfold encodeUnlessDefault
    rw [if_pos (by simpa using hne)]
    exact encodeInteger_of_valid hok
  have hsome : ∀ {α : Type} {encode : α → Except Error Bytes} {check : α → Except Error Unit}
      {field : Option α}, field.isSome = true → validateIfSome check field = .ok () →
      (∀ a, field = some a → check a = .ok () → ∃ word, encode a = .ok word ∧ word ≠ []) →
      ∃ word, encodeIfSome encode field = .ok word ∧ word ≠ [] := by
    intro α encode check field hfield hcheck henc
    obtain ⟨a, rfl⟩ := Option.isSome_iff_exists.mp hfield
    exact henc a rfl hcheck
  have hflag : ∀ {q : TransportParameterId} {flag : Bool}, flag = true →
      ∃ word, encodeFlag q flag = .ok word ∧ word ≠ [] := by
    intro q flag hset
    unfold encodeFlag
    rw [if_pos hset]
    exact encodeTransportParameter_of_le q (Nat.zero_le _)
  unfold validateTransportParameters at hvalid
  split at hvalid
  · cases hvalid
  obtain ⟨_, horig, hvalid⟩ := bind_eq_ok hvalid
  obtain ⟨_, hinit, hvalid⟩ := bind_eq_ok hvalid
  obtain ⟨_, hretry, hvalid⟩ := bind_eq_ok hvalid
  obtain ⟨_, hpreferred, hvalid⟩ := bind_eq_ok hvalid
  obtain ⟨_, hversion, hvalid⟩ := bind_eq_ok hvalid
  obtain ⟨_, hudp, hvalid⟩ := bind_eq_ok hvalid
  obtain ⟨_, hbidi, hvalid⟩ := bind_eq_ok hvalid
  obtain ⟨_, huni, hvalid⟩ := bind_eq_ok hvalid
  obtain ⟨_, hexponent, hvalid⟩ := bind_eq_ok hvalid
  obtain ⟨_, hdelay, hvalid⟩ := bind_eq_ok hvalid
  obtain ⟨_, hlim, hvalid⟩ := bind_eq_ok hvalid
  obtain ⟨_, hdatagram, hvalid⟩ := bind_eq_ok hvalid
  obtain ⟨_, hmin, -⟩ := bind_eq_ok hvalid
  unfold TransportParameters.OutOfRange at hrange
  cases p with
  | originalDestinationConnectionId =>
    exact hsome hpresent horig (fun a _ => encodeConnectionId_of_valid)
  | initialSourceConnectionId =>
    exact hsome hpresent hinit (fun a _ => encodeConnectionId_of_valid)
  | retrySourceConnectionId => exact hsome hpresent hretry (fun a _ => encodeConnectionId_of_valid)
  | preferredAddress => exact hsome hpresent hpreferred (fun a _ => encodePreferred_of_valid)
  | versionInformation =>
    refine hsome hpresent hversion (fun a ha hcheck => encodeVersionInformation_of_valid hcheck ?_)
    exact not_lt.mp (fun hlt => hrange ⟨a, ha, hlt⟩)
  | statelessResetToken =>
    refine @hsome _ _ (fun _ => .ok ()) _ hpresent ?_
      (fun a _ _ => encodeTransportParameter_of_le _ (by simp [varintMax]))
    cases params.statelessResetToken <;> rfl
  | maxDatagramFrameSize => exact hsome hpresent hdatagram (fun a _ => encodeInteger_of_valid)
  | minAckDelay => exact hsome hpresent hmin (fun a _ => encodeInteger_of_valid)
  | disableActiveMigration | greaseQuicBit => exact hflag hpresent
  | maxUdpPayloadSize => exact hdef hpresent hudp
  | initialMaxStreamsBidi => exact hdef hpresent hbidi
  | initialMaxStreamsUni => exact hdef hpresent huni
  | ackDelayExponent => exact hdef hpresent hexponent
  | maxAckDelay => exact hdef hpresent hdelay
  | activeConnectionIdLimit => exact hdef hpresent hlim
  | maxIdleTimeout =>
    refine hdef hpresent ?_
    simp [validateTransportInteger, hrange, show ¬ varintMax < params.maxIdleTimeout by
        unfold maxIdleTimeoutMsCap at hrange; unfold varintMax; omega]
  | initialMaxData | initialMaxStreamDataBidiLocal | initialMaxStreamDataBidiRemote
  | initialMaxStreamDataUni =>
    refine hdef hpresent ?_
    simp [validateTransportInteger, hrange]

namespace TransportParameters

/-- A present parameter that is not written: its value, or the memory for it, is refused. -/
def Fails (params : TransportParameters) (refused : TransportParameterId → Bool)
    (p : TransportParameterId) : Prop := params.OutOfRange p ∨ refused p = true

/-- Either nothing fails, or what fails is the first parameter there is. -/
def FailsFirst (params : TransportParameters) (refused : TransportParameterId → Bool)
    (ids : List TransportParameterId) : Prop :=
  (∀ p ∈ ids, params.present p = true → ¬ params.Fails refused p) ∨
    ∃ p, ids.find? params.present = some p ∧ params.Fails refused p

end TransportParameters

section Append

variable {params : TransportParameters} {source : TransportParameterSource}
  {refused : TransportParameterId → Bool} {p : TransportParameterId}
  {ids : List TransportParameterId} {list : Bytes}

lemma appendParameters_absent (h : params.present p = false) :
    appendParameters params refused (p :: ids) list = appendParameters params refused ids list := by
  simp [appendParameters, encodeParameter_absent h]

lemma appendParameters_fails (hvalid : validateTransportParameters params source = .ok ())
    (hpresent : params.present p = true) (h : params.Fails refused p) :
    ∃ e, appendParameters params refused (p :: ids) list = (.error e, list) := by
  unfold appendParameters
  by_cases hrange : params.OutOfRange p
  · cases hres : encodeParameter params p with
    | error e => exact ⟨_, rfl⟩
    | ok word => exact absurd hres (encodeParameter_outOfRange hrange word)
  · obtain ⟨word, hword, hne⟩ := encodeParameter_written hvalid hpresent hrange
    simp [hword, hne, h.resolve_left hrange]

lemma appendParameters_written (hvalid : validateTransportParameters params source = .ok ())
    (hpresent : params.present p = true) (h : ¬ params.Fails refused p) :
    ∃ word ≠ [], appendParameters params refused (p :: ids) list
      = appendParameters params refused ids (list ++ word) := by
  obtain ⟨word, hword, hne⟩ :=
    encodeParameter_written hvalid hpresent (fun hrange => h (.inl hrange))
  refine ⟨word, hne, ?_⟩
  rw [appendParameters, hword]
  exact if_neg (fun hrefused => h (.inr hrefused.2))

lemma appendParameters_extends (ids : List TransportParameterId) (list : Bytes) :
    list <+: (appendParameters params refused ids list).2 := by
  induction ids generalizing list with
  | nil => exact prefix_rfl
  | cons p rest ih =>
    unfold appendParameters
    split
    · exact prefix_rfl
    next word _ =>
      split
      · exact prefix_rfl
      · exact (prefix_append list word).trans (ih _)

lemma appendParameters_ok_iff (hvalid : validateTransportParameters params source = .ok ()) :
    (appendParameters params refused ids list).1 = .ok () ↔
      ∀ p ∈ ids, params.present p = true → ¬ params.Fails refused p := by
  induction ids generalizing list with
  | nil => simp [appendParameters]
  | cons p rest ih =>
    cases hpresent : params.present p with
    | false =>
      rw [appendParameters_absent hpresent, ih]
      simp [hpresent]
    | true =>
      by_cases hfails : params.Fails refused p
      · obtain ⟨e, he⟩ := @appendParameters_fails _ _ _ _ rest list hvalid hpresent hfails
        simp [he, hpresent, hfails]
      · obtain ⟨word, -, hword⟩ := @appendParameters_written _ _ _ _ rest list hvalid hpresent hfails
        simp [hword, ih, hfails]

lemma appendParameters_atomic_iff (hvalid : validateTransportParameters params source = .ok ()) :
    (∀ e, (appendParameters params refused ids list).1 = .error e →
        (appendParameters params refused ids list).2 = list) ↔ params.FailsFirst refused ids := by
  unfold TransportParameters.FailsFirst
  induction ids generalizing list with
  | nil => simp [appendParameters]
  | cons p rest ih =>
    cases hpresent : params.present p with
    | false =>
      rw [appendParameters_absent hpresent, ih]
      simp [hpresent]
    | true =>
      by_cases hfails : params.Fails refused p
      · obtain ⟨e, he⟩ := @appendParameters_fails _ _ _ _ rest list hvalid hpresent hfails
        simp [he, hpresent, hfails]
      obtain ⟨word, hne, hword⟩ := @appendParameters_written _ _ _ _ rest list hvalid hpresent hfails
      -- the list has grown, so only success is atomic from here on
      rw [← appendParameters_ok_iff hvalid, hword]
      have hlonger : (appendParameters params refused rest (list ++ word)).2 ≠ list := by
        intro heq
        have hlen := (@appendParameters_extends params refused rest (list ++ word)).length_le
        simp [heq, hne] at hlen
      cases hres : (appendParameters params refused rest (list ++ word)).1 with
      | ok u => simp
      | error e => simp [hlonger, hpresent, hfails]

end Append

/-- **A failed call leaves the list as it was exactly when the checks at the front refuse the
parameters, no parameter fails, or the first one there is fails.** -/
theorem encode_leaves_list_iff (params : TransportParameters) (source : TransportParameterSource)
    (refused : TransportParameterId → Bool) (list : Bytes) :
    (∀ e, (appendTransportParametersForSource params source refused list).1 = .error e →
        (appendTransportParametersForSource params source refused list).2 = list) ↔
      (∃ e, validateTransportParameters params source = .error e) ∨
        params.FailsFirst refused TransportParameterId.all := by
  unfold appendTransportParametersForSource
  cases hvalid : validateTransportParameters params source with
  | error e => simp
  | ok u =>
    have hiff := @appendParameters_atomic_iff _ _ refused TransportParameterId.all list hvalid
    simpa using hiff

/-- An idle timeout is written before `initial_max_data` is found too large. -/
theorem encode_leaves_timeout_behind :
    appendTransportParametersForSource { maxIdleTimeout := 30000, initialMaxData := 2 ^ 62 }
        .client (fun _ => false) []
      = (.error (.invalid .invalidTransportParameter), [1, 4, 128, 0, 117, 48]) := by decide

end Netz.Quic
