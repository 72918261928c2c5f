/-
Each transport parameter read back.

A parameter is either left out, and then has its default, or written as an identifier, a
length and a value, and then the decoder's case for it takes exactly that value and sets
exactly its field.  `FieldCoded` is this, and `encodeParameter_coded` has it for each of the
twenty-one.
-/
import Netz.Proofs.FrameFields
import Netz.Quic.TransportParameters

namespace Netz.Quic

open Lib Lib.Reader Varint
open List hiding Vector

/-! ### Fields -/

/-- Two sets of parameters have the same value of one parameter. -/
def TransportParameterId.Agrees (a b : TransportParameters) : TransportParameterId → Prop
  | .originalDestinationConnectionId =>
    a.originalDestinationConnectionId = b.originalDestinationConnectionId
  | .maxIdleTimeout => a.maxIdleTimeout = b.maxIdleTimeout
  | .statelessResetToken => a.statelessResetToken = b.statelessResetToken
  | .maxUdpPayloadSize => a.maxUdpPayloadSize = b.maxUdpPayloadSize
  | .initialMaxData => a.initialMaxData = b.initialMaxData
  | .initialMaxStreamDataBidiLocal =>
    a.initialMaxStreamDataBidiLocal = b.initialMaxStreamDataBidiLocal
  | .initialMaxStreamDataBidiRemote =>
    a.initialMaxStreamDataBidiRemote = b.initialMaxStreamDataBidiRemote
  | .initialMaxStreamDataUni => a.initialMaxStreamDataUni = b.initialMaxStreamDataUni
  | .initialMaxStreamsBidi => a.initialMaxStreamsBidi = b.initialMaxStreamsBidi
  | .initialMaxStreamsUni => a.initialMaxStreamsUni = b.initialMaxStreamsUni
  | .ackDelayExponent => a.ackDelayExponent = b.ackDelayExponent
  | .maxAckDelay => a.maxAckDelay = b.maxAckDelay
  | .disableActiveMigration => a.disableActiveMigration = b.disableActiveMigration
  | .preferredAddress => a.preferredAddress = b.preferredAddress
  | .activeConnectionIdLimit => a.activeConnectionIdLimit = b.activeConnectionIdLimit
  | .initialSourceConnectionId => a.initialSourceConnectionId = b.initialSourceConnectionId
  | .retrySourceConnectionId => a.retrySourceConnectionId = b.retrySourceConnectionId
  | .versionInformation => a.versionInformation = b.versionInformation
  | .maxDatagramFrameSize => a.maxDatagramFrameSize = b.maxDatagramFrameSize
  | .greaseQuicBit => a.greaseQuicBit = b.greaseQuicBit
  | .minAckDelay => a.minAckDelay = b.minAckDelay

namespace TransportParameterId

lemma Agrees.refl (a : TransportParameters) (p : TransportParameterId) : p.Agrees a a := by
  cases p <;> rfl

lemma Agrees.trans {a b c : TransportParameters} {p : TransportParameterId}
    (h : p.Agrees a b) (h' : p.Agrees b c) : p.Agrees a c := by
  cases p <;> exact Eq.trans h h'

lemma agrees_ext {a b : TransportParameters} (h : ∀ p, Agrees a b p) : a = b := by
  cases a
  cases b
  rw [TransportParameters.mk.injEq]
  exact ⟨h .originalDestinationConnectionId, h .maxIdleTimeout, h .statelessResetToken,
    h .maxUdpPayloadSize, h .initialMaxData, h .initialMaxStreamDataBidiLocal,
    h .initialMaxStreamDataBidiRemote, h .initialMaxStreamDataUni, h .initialMaxStreamsBidi,
    h .initialMaxStreamsUni, h .ackDelayExponent, h .maxAckDelay, h .disableActiveMigration,
    h .preferredAddress, h .activeConnectionIdLimit, h .initialSourceConnectionId,
    h .retrySourceConnectionId, h .versionInformation, h .maxDatagramFrameSize, h .greaseQuicBit,
    h .minAckDelay⟩

lemma mem_all (p : TransportParameterId) : p ∈ all := by
  cases p <;> decide

lemma ofInt_toInt (p : TransportParameterId) : ofInt p.toInt = some p := by
  cases p <;> decide

lemma toInt_inj {p q : TransportParameterId} (h : p.toInt = q.toInt) : p = q := by
  have hp := ofInt_toInt p
  rw [h, ofInt_toInt q, Option.some.injEq] at hp
  exact hp.symm

end TransportParameterId

/-! ### One parameter on the wire -/

/-- Identifier, length and value in their shortest forms. -/
def Written (id : Nat) (value word : Bytes) : Prop :=
  ∃ k m, Varint.length id = .ok k ∧ Varint.length value.length = .ok m ∧
    word = encodeWithLen id k ++ (encodeWithLen value.length m ++ value)

variable {id : Nat} {header : TransportParameterHeader} {value : Bytes}

lemma transportParameterHeader_ok {valueLen : Nat}
    (h : transportParameterHeader id valueLen = .ok header) :
    Varint.length id = .ok header.idLen ∧ Varint.length valueLen = .ok header.valueLenLen ∧
      header.valueLen = valueLen := by
  obtain ⟨idLen, hid, h⟩ := bind_eq_ok h
  obtain ⟨valueLenLen, hlen, h⟩ := bind_eq_ok h
  obtain ⟨headerLen, -, h⟩ := bind_eq_ok h
  obtain ⟨totalLen, -, h⟩ := bind_eq_ok h
  cases h
  exact ⟨hid, hlen, rfl⟩

variable {word : Bytes}

lemma written_of_header (h : transportParameterHeader id value.length = .ok header)
    (hword : word = appendTransportParameterHeader id header ++ value) : Written id value word := by
  obtain ⟨hid, hlen, hvalue⟩ := transportParameterHeader_ok h
  refine ⟨_, _, hid, hlen, ?_⟩
  rw [hword, appendTransportParameterHeader, hvalue, append_assoc]

lemma written_of_encode (h : encodeTransportParameter id value = .ok word) :
    Written id value word := by
  obtain ⟨header, hhdr, h⟩ := bind_eq_ok h
  cases h
  exact written_of_header hhdr rfl

lemma Written.length_pos (h : Written id value word) : 0 < word.length := by
  obtain ⟨k, m, hid, -, hword⟩ := h
  obtain ⟨first, tail, hfirst, -⟩ := encodeWithLen_spec hid
  rw [hword, hfirst]
  simp

/-! ### Kinds of values -/

variable {id : TransportParameterId}

lemma encodeInteger_ok {value : Nat} (h : encodeIntegerTransportParameter id value = .ok word) :
    ∃ bytes, Written id.toInt bytes word ∧ parseTransportInteger id bytes = .ok value := by
  obtain ⟨_, hvalid, h⟩ := bind_eq_ok h
  obtain ⟨n, hn, h⟩ := bind_eq_ok h
  obtain ⟨header, hhdr, h⟩ := bind_eq_ok h
  cases h
  have hlen := length_encodeWithLen hn
  refine ⟨encodeWithLen value n, written_of_header (by rw [hlen]; exact hhdr) rfl, ?_⟩
  have hread := reads_encodeWithLen hn []
  rw [append_nil] at hread
  have hne : (encodeWithLen value n).length ≠ 0 := by
    obtain ⟨first, tail, hfirst, -⟩ := encodeWithLen_spec hn
    rw [hfirst]
    simp
  unfold parseTransportInteger
  rw [if_neg hne, readWhole, hread]
  show (validateTransportInteger id value >>= fun _ => pure value) = _
  rw [hvalid]
  rfl

lemma encodeUnlessDefault_ok {value default : Nat}
    (h : encodeUnlessDefault id value default = .ok word) :
    (word = [] ∧ value = default) ∨
      ∃ bytes, Written id.toInt bytes word ∧ parseTransportInteger id bytes = .ok value := by
  unfold encodeUnlessDefault at h
  by_cases hne : value ≠ default
  · rw [if_pos hne] at h
    exact .inr (encodeInteger_ok h)
  · rw [if_neg hne, Except.ok.injEq] at h
    exact .inl ⟨h.symm, not_not.mp hne⟩

lemma encodeConnectionId_ok {cid word : Bytes} (h : encodeConnectionId id cid = .ok word) :
    Written id.toInt cid word ∧ parseConnectionId cid = .ok cid := by
  obtain ⟨_, hvalid, h⟩ := bind_eq_ok h
  refine ⟨written_of_encode h, ?_⟩
  simp [hvalid, parseConnectionId]

lemma encodeFlag_ok {flag : Bool} (h : encodeFlag id flag = .ok word) :
    (word = [] ∧ flag = false) ∨ (flag = true ∧ Written id.toInt [] word) := by
  unfold encodeFlag at h
  cases flag with
  | false =>
    rw [if_neg (by simp), Except.ok.injEq] at h
    exact .inl ⟨h.symm, rfl⟩
  | true => exact .inr ⟨rfl, written_of_encode h⟩

lemma parseResetToken_toList (token : Vector UInt8 16) :
    parseResetToken token.toList = .ok token := by
  have hlen : token.toList.length = 16 := by simp
  unfold parseResetToken
  rw [dif_pos hlen]
  congr 1

/-! ### Values with a layout of their own -/

lemma reads_readU16 (value : UInt16) : Reads readU16 (bigEndian 2 value.toNat) value := by
  have hread := reads_readSlice (bigEndian 2 value.toNat)
  refine hread.map ?_
  rw [ofBigEndian_bigEndian]
  simp

lemma readWhole_of_reads {α : Type} {r : Cursor α} {a : α} (h : Reads r value a) :
    readWhole r value = .ok a := by
  have hrun := h []
  rw [append_nil] at hrun
  unfold readWhole
  rw [hrun]

lemma encodePreferred_ok {preferred : PreferredAddress}
    (h : encodePreferredAddressTransportParameter preferred = .ok word) :
    ∃ bytes, Written TransportParameterId.preferredAddress.toInt bytes word ∧
      parsePreferredAddress bytes = .ok preferred := by
  obtain ⟨_, hvalid, h⟩ := bind_eq_ok h
  obtain ⟨valueLen, hlen, h⟩ := bind_eq_ok h
  obtain ⟨header, hhdr, h⟩ := bind_eq_ok h
  cases h
  have hcid : validateTransportConnectionId preferred.connectionId true = .ok () := by
    unfold validatePreferredAddress at hvalid
    dsimp only at hvalid
    split at hvalid
    · cases hvalid
    · exact hvalid
  have hsize : preferred.connectionId.length ≤ 20 := by
    unfold validateTransportConnectionId at hcid
    split at hcid
    · cases hcid
    · omega
  have hbyte : (UInt8.ofNat preferred.connectionId.length).toNat
      = preferred.connectionId.length := by
    rw [UInt8.toNat_ofNat']
    omega
  refine ⟨_, written_of_header ?_ rfl, readWhole_of_reads ?_⟩
  · rw [addWireLen_ok hlen] at hhdr
    rw [← hhdr]
    congr 1
    simp only [length_append, Vector.length_toList, length_bigEndian, length_singleton]
    omega
  refine (reads_takeVector Error.bufferTooShort preferred.ipv4Address).bind
    ((reads_readU16 preferred.ipv4Port).bind
      ((reads_takeVector Error.bufferTooShort preferred.ipv6Address).bind
        ((reads_readU16 preferred.ipv6Port).bind
          ((reads_next Error.bufferTooShort _).bind ?_))))
  rw [hbyte]
  exact (reads_readSlice preferred.connectionId).bind (Reads.check (check_ok hcid)
    ((reads_takeVector Error.bufferTooShort preferred.statelessResetToken).map rfl))

lemma encodeVersionInformation_ok {info : VersionInformation}
    (h : encodeVersionInformationTransportParameter info = .ok word) :
    ∃ bytes, Written TransportParameterId.versionInformation.toInt bytes word ∧
      parseVersionInformation bytes = .ok info := by
  obtain ⟨_, hvalid, h⟩ := bind_eq_ok h
  obtain ⟨valueLen, hlen, h⟩ := bind_eq_ok h
  obtain ⟨header, hhdr, h⟩ := bind_eq_ok h
  cases h
  have hvalueLen : valueLen = 4 + info.availableVersionsWire.length := by
    split at hlen
    · cases hlen
      rfl
    · cases hlen
  have hchosen : (bigEndian 4 info.chosenVersion.toNat).length = 4 := length_bigEndian _ _
  have haligned : info.availableVersionsWire.length % 4 = 0 := by
    obtain ⟨_, -, hrest⟩ := bind_eq_ok hvalid
    obtain ⟨hmod, hrest⟩ := of_guard hrest nofun
    exact not_not.mp hmod
  refine ⟨bigEndian 4 info.chosenVersion.toNat ++ info.availableVersionsWire,
    written_of_header ?_ rfl, ?_⟩
  · rw [length_append, hchosen, ← hvalueLen]
    exact hhdr
  have htake : (bigEndian 4 info.chosenVersion.toNat ++ info.availableVersionsWire).take 4
      = bigEndian 4 info.chosenVersion.toNat := take_left' hchosen
  have hversion : readU32 (bigEndian 4 info.chosenVersion.toNat) = info.chosenVersion := by
    simp [ofBigEndian_bigEndian, readU32]
  unfold parseVersionInformation
  rw [if_neg (by rw [length_append, hchosen]; omega), htake, hversion]
  simp [hvalid]

/-! ### Every parameter -/

/-- What stands for a parameter on the wire: nothing, and then it has its default, or a value
from which the decoder sets this parameter and no other. -/
def FieldCoded (params : TransportParameters) (source : TransportParameterSource)
    (p : TransportParameterId) (word : Bytes) : Prop :=
  (word = [] ∧ p.Agrees {} params) ∨
    ∃ value, Written p.toInt value word ∧ ∀ acc, ∃ acc',
      parseParameter source value acc p = .ok acc' ∧ p.Agrees acc' params ∧
        ∀ q, q ≠ p → q.Agrees acc' acc

lemma parseParameter_others {source : TransportParameterSource} {acc acc' : TransportParameters}
    {p q : TransportParameterId} (h : parseParameter source value acc p = .ok acc') (hq : q ≠ p) :
    q.Agrees acc' acc := by
  cases p
  all_goals
    obtain ⟨a, -, h⟩ := bind_eq_ok h
    try obtain ⟨b, -, h⟩ := bind_eq_ok h
    cases h
    cases q <;> first | rfl | exact absurd rfl hq

section

variable {params : TransportParameters} {source : TransportParameterSource}
  {p : TransportParameterId} {word : Bytes} {α : Type}

variable {parse : Bytes → Except Error α}

lemma fieldCoded_of_value {bytes : Bytes} {a : α}
    (update : α → TransportParameters → TransportParameters) (hword : Written p.toInt bytes word)
    (hread : parse bytes = .ok a) (hparse : ∀ acc, parseParameter source bytes acc p
      = (parse bytes >>= fun b => pure (update b acc)))
    (hself : ∀ acc, p.Agrees (update a acc) params) : FieldCoded params source p word := by
  refine .inr ⟨bytes, hword, fun acc => ?_⟩
  have hrun : parseParameter source bytes acc p = .ok (update a acc) := by
    rw [hparse acc, hread]
    rfl
  exact ⟨update a acc, hrun, hself acc, fun q hq => parseParameter_others hrun hq⟩

lemma fieldCoded_of_integer {value default : Nat}
    (h : encodeUnlessDefault p value default = .ok word)
    (update : Nat → TransportParameters → TransportParameters)
    (hdef : value = default → p.Agrees {} params)
    (hparse : ∀ bytes acc, parseParameter source bytes acc p
      = (parseTransportInteger p bytes >>= fun b => pure (update b acc)))
    (hself : ∀ acc, p.Agrees (update value acc) params) : FieldCoded params source p word := by
  rcases encodeUnlessDefault_ok h with ⟨hword, hvalue⟩ | ⟨bytes, hword, hread⟩
  · exact .inl ⟨hword, hdef hvalue⟩
  · exact fieldCoded_of_value update hword hread (hparse bytes) hself

lemma fieldCoded_of_flag {flag : Bool} (h : encodeFlag p flag = .ok word)
    (update : Bool → TransportParameters → TransportParameters)
    (hdef : flag = false → p.Agrees {} params)
    (hparse : ∀ bytes acc, parseParameter source bytes acc p
      = (parseFlag bytes >>= fun b => pure (update b acc)))
    (hself : flag = true → ∀ acc, p.Agrees (update true acc) params) :
    FieldCoded params source p word := by
  rcases encodeFlag_ok h with ⟨hword, hflag⟩ | ⟨hflag, hword⟩
  · exact .inl ⟨hword, hdef hflag⟩
  · exact fieldCoded_of_value update hword rfl (hparse []) (hself hflag)

lemma fieldCoded_of_optional {encode : α → Except Error Bytes} {field : Option α}
    (h : encodeIfSome encode field = .ok word)
    (update : α → TransportParameters → TransportParameters)
    (hnone : field = none → p.Agrees {} params)
    (hcode : ∀ a w, encode a = .ok w → ∃ bytes, Written p.toInt bytes w ∧ parse bytes = .ok a)
    (hparse : field.isSome → ∀ bytes acc, parseParameter source bytes acc p
      = (parse bytes >>= fun b => pure (update b acc)))
    (hself : ∀ a, field = some a → ∀ acc, p.Agrees (update a acc) params) :
    FieldCoded params source p word := by
  cases hfield : field with
  | none =>
    rw [hfield, encodeIfSome, Except.ok.injEq] at h
    exact .inl ⟨h.symm, hnone hfield⟩
  | some a =>
    rw [hfield] at h
    obtain ⟨bytes, hword, hread⟩ := hcode a word h
    exact fieldCoded_of_value update hword hread (hparse (by rw [hfield]; rfl) bytes)
      (hself a hfield)

/-- A client that passes validation has none of the parameters only a server may send. -/
theorem requireServer_of_valid (h : validateTransportParameters params source = .ok ())
    (hsome : params.originalDestinationConnectionId.isSome ∨ params.statelessResetToken.isSome ∨
      params.preferredAddress.isSome ∨ params.retrySourceConnectionId.isSome) :
    requireServer source = .ok () := by
  cases source with
  | server => rfl
  | client =>
    unfold validateTransportParameters at h
    rw [if_pos ⟨rfl, hsome⟩] at h
    cases h

lemma parse_behind_server (hserver : requireServer source = .ok ()) (bytes : Bytes)
    (store : α → TransportParameters) :
    (requireServer source >>= fun _ => parse bytes >>= fun b => pure (store b))
      = (parse bytes >>= fun b => (pure (store b) : Except Error TransportParameters)) := by
  rw [hserver]
  rfl

end

/-- **Every parameter is left out at its default or read back.** -/
theorem encodeParameter_coded {params : TransportParameters} {source : TransportParameterSource}
    (hvalid : validateTransportParameters params source = .ok ()) (p : TransportParameterId)
    {word : Bytes} (h : encodeParameter params p = .ok word) : FieldCoded params source p word := by
  cases p with
  | originalDestinationConnectionId =>
    exact fieldCoded_of_optional h
      (fun a acc => { acc with originalDestinationConnectionId := some a }) Eq.symm
      (fun a w hw => ⟨a, encodeConnectionId_ok hw⟩)
      (fun hsome bytes acc => parse_behind_server
        (requireServer_of_valid hvalid (.inl hsome)) bytes _) (fun a ha acc => ha.symm)
  | maxIdleTimeout =>
    exact fieldCoded_of_integer h (fun n acc => { acc with maxIdleTimeout := n }) Eq.symm
      (fun bytes acc => rfl) (fun acc => rfl)
  | statelessResetToken =>
    exact fieldCoded_of_optional h (fun a acc => { acc with statelessResetToken := some a })
      Eq.symm (fun a w hw => ⟨_, written_of_encode hw, parseResetToken_toList a⟩)
      (fun hsome bytes acc => parse_behind_server
        (requireServer_of_valid hvalid (.inr (.inl hsome))) bytes _) (fun a ha acc => ha.symm)
  | maxUdpPayloadSize =>
    exact fieldCoded_of_integer h (fun n acc => { acc with maxUdpPayloadSize := n }) Eq.symm
      (fun bytes acc => rfl) (fun acc => rfl)
  | initialMaxData =>
    exact fieldCoded_of_integer h (fun n acc => { acc with initialMaxData := n }) Eq.symm
      (fun bytes acc => rfl) (fun acc => rfl)
  | initialMaxStreamDataBidiLocal =>
    exact fieldCoded_of_integer h
      (fun n acc => { acc with initialMaxStreamDataBidiLocal := n }) Eq.symm
      (fun bytes acc => rfl) (fun acc => rfl)
  | initialMaxStreamDataBidiRemote =>
    exact fieldCoded_of_integer h
      (fun n acc => { acc with initialMaxStreamDataBidiRemote := n }) Eq.symm
      (fun bytes acc => rfl) (fun acc => rfl)
  | initialMaxStreamDataUni =>
    exact fieldCoded_of_integer h (fun n acc => { acc with initialMaxStreamDataUni := n })
      Eq.symm (fun bytes acc => rfl) (fun acc => rfl)
  | initialMaxStreamsBidi =>
    exact fieldCoded_of_integer h (fun n acc => { acc with initialMaxStreamsBidi := n })
      Eq.symm (fun bytes acc => rfl) (fun acc => rfl)
  | initialMaxStreamsUni =>
    exact fieldCoded_of_integer h (fun n acc => { acc with initialMaxStreamsUni := n })
      Eq.symm (fun bytes acc => rfl) (fun acc => rfl)
  | ackDelayExponent =>
    exact fieldCoded_of_integer h (fun n acc => { acc with ackDelayExponent := n }) Eq.symm
      (fun bytes acc => rfl) (fun acc => rfl)
  | maxAckDelay =>
    exact fieldCoded_of_integer h (fun n acc => { acc with maxAckDelay := n }) Eq.symm
      (fun bytes acc => rfl) (fun acc => rfl)
  | disableActiveMigration =>
    exact fieldCoded_of_flag h (fun b acc => { acc with disableActiveMigration := b }) Eq.symm
      (fun bytes acc => rfl) (fun hb acc => hb.symm)
  | preferredAddress =>
    exact fieldCoded_of_optional h (fun a acc => { acc with preferredAddress := some a })
      Eq.symm (fun a w hw => encodePreferred_ok hw)
      (fun hsome bytes acc => parse_behind_server
        (requireServer_of_valid hvalid (.inr (.inr (.inl hsome)))) bytes _)
      (fun a ha acc => ha.symm)
  | activeConnectionIdLimit =>
    exact fieldCoded_of_integer h (fun n acc => { acc with activeConnectionIdLimit := n })
      Eq.symm (fun bytes acc => rfl) (fun acc => rfl)
  | initialSourceConnectionId =>
    exact fieldCoded_of_optional h
      (fun a acc => { acc with initialSourceConnectionId := some a }) Eq.symm
      (fun a w hw => ⟨a, encodeConnectionId_ok hw⟩) (fun _ bytes acc => rfl)
      (fun a ha acc => ha.symm)
  | retrySourceConnectionId =>
    exact fieldCoded_of_optional h
      (fun a acc => { acc with retrySourceConnectionId := some a }) Eq.symm
      (fun a w hw => ⟨a, encodeConnectionId_ok hw⟩)
      (fun hsome bytes acc => parse_behind_server
        (requireServer_of_valid hvalid (.inr (.inr (.inr hsome)))) bytes _)
      (fun a ha acc => ha.symm)
  | versionInformation =>
    exact fieldCoded_of_optional h (fun a acc => { acc with versionInformation := some a })
      Eq.symm (fun a w hw => encodeVersionInformation_ok hw) (fun _ bytes acc => rfl)
      (fun a ha acc => ha.symm)
  | maxDatagramFrameSize =>
    exact fieldCoded_of_optional h (fun a acc => { acc with maxDatagramFrameSize := some a })
      Eq.symm (fun a w hw => encodeInteger_ok hw) (fun _ bytes acc => rfl)
      (fun a ha acc => ha.symm)
  | greaseQuicBit =>
    exact fieldCoded_of_flag h (fun b acc => { acc with greaseQuicBit := b }) Eq.symm
      (fun bytes acc => rfl) (fun hb acc => hb.symm)
  | minAckDelay =>
    exact fieldCoded_of_optional h (fun a acc => { acc with minAckDelay := some a })
      Eq.symm (fun a w hw => encodeInteger_ok hw) (fun _ bytes acc => rfl)
      (fun a ha acc => ha.symm)

end Netz.Quic
