/-
Transport parameters and their encoding (`quic/mod.zig`).

The encoder and the decoder each treat the parameters one after the other;
`encodeParameter` and `parseParameter` have one case for each of them, in the order of
`TransportParameterId`, which is the order they are written in.  The value of a parameter is
read from a cursor of its own.
-/
import Netz.Quic.FrameParse

namespace Netz.Quic

open Lib Varint Cursor

inductive TransportParameterId where
  | originalDestinationConnectionId
  | maxIdleTimeout
  | statelessResetToken
  | maxUdpPayloadSize
  | initialMaxData
  | initialMaxStreamDataBidiLocal
  | initialMaxStreamDataBidiRemote
  | initialMaxStreamDataUni
  | initialMaxStreamsBidi
  | initialMaxStreamsUni
  | ackDelayExponent
  | maxAckDelay
  | disableActiveMigration
  | preferredAddress
  | activeConnectionIdLimit
  | initialSourceConnectionId
  | retrySourceConnectionId
  | versionInformation
  | maxDatagramFrameSize
  | greaseQuicBit
  | minAckDelay
deriving DecidableEq

namespace TransportParameterId

/-- `@intFromEnum` -/
def toInt : TransportParameterId → Nat
  | .originalDestinationConnectionId => 0x00
  | .maxIdleTimeout => 0x01
  | .statelessResetToken => 0x02
  | .maxUdpPayloadSize => 0x03
  | .initialMaxData => 0x04
  | .initialMaxStreamDataBidiLocal => 0x05
  | .initialMaxStreamDataBidiRemote => 0x06
  | .initialMaxStreamDataUni => 0x07
  | .initialMaxStreamsBidi => 0x08
  | .initialMaxStreamsUni => 0x09
  | .ackDelayExponent => 0x0a
  | .maxAckDelay => 0x0b
  | .disableActiveMigration => 0x0c
  | .preferredAddress => 0x0d
  | .activeConnectionIdLimit => 0x0e
  | .initialSourceConnectionId => 0x0f
  | .retrySourceConnectionId => 0x10
  | .versionInformation => 0x11
  | .maxDatagramFrameSize => 0x20
  | .greaseQuicBit => 0x2ab2
  | .minAckDelay => 0xff04de1b

/-- The parameters in the order they are written in. -/
def all : List TransportParameterId :=
  [.originalDestinationConnectionId, .maxIdleTimeout, .statelessResetToken, .maxUdpPayloadSize,
    .initialMaxData, .initialMaxStreamDataBidiLocal, .initialMaxStreamDataBidiRemote,
    .initialMaxStreamDataUni, .initialMaxStreamsBidi, .initialMaxStreamsUni, .ackDelayExponent,
    .maxAckDelay, .disableActiveMigration, .preferredAddress, .activeConnectionIdLimit,
    .initialSourceConnectionId, .retrySourceConnectionId, .versionInformation,
    .maxDatagramFrameSize, .greaseQuicBit, .minAckDelay]

/-- The parameter an identifier names; all other identifiers are unknown. -/
def ofInt (id : Nat) : Option TransportParameterId := all.find? (fun p => p.toInt == id)

end TransportParameterId

inductive TransportParameterSource where
  | client
  | server
deriving DecidableEq

def defaultMaxUdpPayloadSize : Nat := 65527

def defaultAckDelayExponent : Nat := 3

def defaultMaxAckDelayMs : Nat := 25

def defaultActiveConnectionIdLimit : Nat := 2

def maxIdleTimeoutMsCap : Nat := 2 ^ 32

structure PreferredAddress where
  ipv4Address : Vector UInt8 4 := Vector.replicate 4 0
  ipv4Port : UInt16 := 0
  ipv6Address : Vector UInt8 16 := Vector.replicate 16 0
  ipv6Port : UInt16 := 0
  connectionId : Bytes := []
  statelessResetToken : Vector UInt8 16 := Vector.replicate 16 0

structure VersionInformation where
  chosenVersion : UInt32
  availableVersionsWire : Bytes := []

structure TransportParameters where
  originalDestinationConnectionId : Option Bytes := none
  maxIdleTimeout : Nat := 0
  statelessResetToken : Option (Vector UInt8 16) := none
  maxUdpPayloadSize : Nat := defaultMaxUdpPayloadSize
  initialMaxData : Nat := 0
  initialMaxStreamDataBidiLocal : Nat := 0
  initialMaxStreamDataBidiRemote : Nat := 0
  initialMaxStreamDataUni : Nat := 0
  initialMaxStreamsBidi : Nat := 0
  initialMaxStreamsUni : Nat := 0
  ackDelayExponent : Nat := defaultAckDelayExponent
  maxAckDelay : Nat := defaultMaxAckDelayMs
  disableActiveMigration : Bool := false
  preferredAddress : Option PreferredAddress := none
  activeConnectionIdLimit : Nat := defaultActiveConnectionIdLimit
  initialSourceConnectionId : Option Bytes := none
  retrySourceConnectionId : Option Bytes := none
  versionInformation : Option VersionInformation := none
  maxDatagramFrameSize : Option Nat := none
  greaseQuicBit : Bool := false
  minAckDelay : Option Nat := none

/-! ### Validation -/

def validateTransportConnectionId (cid : Bytes) (requireNonEmpty : Bool) : Except Error Unit :=
  if (requireNonEmpty ∧ cid.length = 0) ∨ 20 < cid.length then .error .invalidTransportParameter
  else .ok ()

def validateTransportInteger (id : TransportParameterId) (value : Nat) : Except Error Unit :=
  if value > varintMax then .error .invalidTransportParameter
  else
    match id with
    | .maxIdleTimeout =>
      if value > maxIdleTimeoutMsCap then .error .invalidTransportParameter else .ok ()
    | .maxUdpPayloadSize =>
      if value < 1200 then .error .invalidTransportParameter
      else if value > defaultMaxUdpPayloadSize then .error .invalidTransportParameter
      else .ok ()
    | .initialMaxStreamsBidi | .initialMaxStreamsUni =>
      if value > maxStreamCount then .error .invalidTransportParameter else .ok ()
    | .ackDelayExponent => if value > 20 then .error .invalidTransportParameter else .ok ()
    | .maxAckDelay => if value ≥ 2 ^ 14 then .error .invalidTransportParameter else .ok ()
    | .activeConnectionIdLimit =>
      if value < defaultActiveConnectionIdLimit then .error .invalidTransportParameter else .ok ()
    | _ => .ok ()

def validateMinAckDelayBounds (maxAckDelayMs : Nat) (minAckDelayUs : Option Nat) :
    Except Error Unit :=
  match minAckDelayUs with
  | none => .ok ()
  | some minAckDelay =>
    if maxAckDelayMs * 1000 > maxU64 then .error .invalidTransportParameter
    else if minAckDelay > maxAckDelayMs * 1000 then .error .invalidTransportParameter
    else .ok ()

def validatePreferredAddress (preferred : PreferredAddress) : Except Error Unit :=
  let hasIpv4 := preferred.ipv4Address ≠ Vector.replicate 4 0 ∨ preferred.ipv4Port ≠ 0
  let hasIpv6 := preferred.ipv6Address ≠ Vector.replicate 16 0 ∨ preferred.ipv6Port ≠ 0
  if ¬ hasIpv4 ∧ ¬ hasIpv6 then .error .invalidTransportParameter
  else validateTransportConnectionId preferred.connectionId true

/-- `std.mem.readInt(u32, bytes, .big)` -/
def readU32 (bytes : Bytes) : UInt32 := UInt32.ofNat (ofBigEndian bytes)

namespace VersionInformation

def availableVersionCount (info : VersionInformation) : Nat := info.availableVersionsWire.length / 4

def availableVersionAt (info : VersionInformation) (index : Nat) : Option UInt32 :=
  if index ≥ info.availableVersionCount then none
  else some (readU32 ((info.availableVersionsWire.drop (index * 4)).take 4))

end VersionInformation

def isReservedVersionWire (version : UInt32) : Bool := version &&& 0x0f0f0f0f == 0x0a0a0a0a

/-- The version that stands for negotiation is 0. -/
def validateChosenVersion (version : UInt32) : Except Error Unit :=
  if version = 0 ∨ isReservedVersionWire version = true then .error .invalidTransportParameter
  else .ok ()

def validateAvailableVersion (version : UInt32) : Except Error Unit :=
  if version = 0 then .error .invalidTransportParameter else .ok ()

def validateAvailableVersionAt (info : VersionInformation) (index : Nat) : Except Error Unit :=
  match info.availableVersionAt index with
  | none => .error .invalidTransportParameterLength
  | some version => validateAvailableVersion version

def validateVersionInformation (info : VersionInformation) : Except Error Unit := do
  validateChosenVersion info.chosenVersion
  if info.availableVersionsWire.length % 4 ≠ 0 then .error .invalidTransportParameterLength
  else (List.range info.availableVersionCount).forM (validateAvailableVersionAt info)

/-- A check of an optional parameter. -/
def validateIfSome {α : Type} (check : α → Except Error Unit) : Option α → Except Error Unit
  | none => .ok ()
  | some a => check a

def validateTransportParameters (params : TransportParameters)
    (source : TransportParameterSource) : Except Error Unit := do
  if source = .client ∧ (params.originalDestinationConnectionId.isSome ∨
      params.statelessResetToken.isSome ∨ params.preferredAddress.isSome ∨
      params.retrySourceConnectionId.isSome) then
    throw .transportParameterForbidden
  validateIfSome (validateTransportConnectionId · false) params.originalDestinationConnectionId
  validateIfSome (validateTransportConnectionId · false) params.initialSourceConnectionId
  validateIfSome (validateTransportConnectionId · false) params.retrySourceConnectionId
  validateIfSome validatePreferredAddress params.preferredAddress
  validateIfSome validateVersionInformation params.versionInformation
  validateTransportInteger .maxUdpPayloadSize params.maxUdpPayloadSize
  validateTransportInteger .initialMaxStreamsBidi params.initialMaxStreamsBidi
  validateTransportInteger .initialMaxStreamsUni params.initialMaxStreamsUni
  validateTransportInteger .ackDelayExponent params.ackDelayExponent
  validateTransportInteger .maxAckDelay params.maxAckDelay
  validateTransportInteger .activeConnectionIdLimit params.activeConnectionIdLimit
  validateIfSome (validateTransportInteger .maxDatagramFrameSize) params.maxDatagramFrameSize
  validateIfSome (validateTransportInteger .minAckDelay) params.minAckDelay
  validateMinAckDelayBounds params.maxAckDelay params.minAckDelay

/-! ### Encoding -/

structure TransportParameterHeader where
  valueLen : Nat
  idLen : Nat
  valueLenLen : Nat
  totalLen : Nat

def transportParameterHeader (id valueLen : Nat) : Except Error TransportParameterHeader := do
  let idLen ← Varint.length id
  let valueLenLen ← Varint.length valueLen
  let headerLen ← addWireLen idLen valueLenLen
  let totalLen ← addWireLen headerLen valueLen
  return { valueLen, idLen, valueLenLen, totalLen }

def appendTransportParameterHeader (id : Nat) (header : TransportParameterHeader) : Bytes :=
  encodeWithLen id header.idLen ++ encodeWithLen header.valueLen header.valueLenLen

def encodeTransportParameter (id : Nat) (value : Bytes) : Except Error Bytes := do
  let header ← transportParameterHeader id value.length
  return appendTransportParameterHeader id header ++ value

def encodeIntegerTransportParameter (id : TransportParameterId) (value : Nat) :
    Except Error Bytes := do
  validateTransportInteger id value
  let valueLen ← Varint.length value
  let header ← transportParameterHeader id.toInt valueLen
  return appendTransportParameterHeader id.toInt header ++ encodeWithLen value valueLen

def encodePreferredAddressTransportParameter (preferred : PreferredAddress) :
    Except Error Bytes := do
  validatePreferredAddress preferred
  let valueLen ← addWireLen 41 preferred.connectionId.length
  let header ← transportParameterHeader TransportParameterId.preferredAddress.toInt valueLen
  return appendTransportParameterHeader TransportParameterId.preferredAddress.toInt header ++
    (preferred.ipv4Address.toList ++ (bigEndian 2 preferred.ipv4Port.toNat ++
      (preferred.ipv6Address.toList ++ (bigEndian 2 preferred.ipv6Port.toNat ++
        ([UInt8.ofNat preferred.connectionId.length] ++
          (preferred.connectionId ++ preferred.statelessResetToken.toList))))))

def encodeVersionInformationTransportParameter (info : VersionInformation) :
    Except Error Bytes := do
  validateVersionInformation info
  let valueLen ← (if 4 + info.availableVersionsWire.length ≤ maxU64 then
    .ok (4 + info.availableVersionsWire.length) else .error .invalidTransportParameterLength)
  let header ← transportParameterHeader TransportParameterId.versionInformation.toInt valueLen
  return appendTransportParameterHeader TransportParameterId.versionInformation.toInt header ++
    (bigEndian 4 info.chosenVersion.toNat ++ info.availableVersionsWire)

/-- An integer that differs from its default. -/
def encodeUnlessDefault (id : TransportParameterId) (value default : Nat) : Except Error Bytes :=
  if value ≠ default then encodeIntegerTransportParameter id value else .ok []

def encodeIfSome {α : Type} (encode : α → Except Error Bytes) : Option α → Except Error Bytes
  | none => .ok []
  | some a => encode a

def encodeConnectionId (id : TransportParameterId) (cid : Bytes) : Except Error Bytes := do
  validateTransportConnectionId cid false
  encodeTransportParameter id.toInt cid

def encodeFlag (id : TransportParameterId) (flag : Bool) : Except Error Bytes :=
  if flag then encodeTransportParameter id.toInt [] else .ok []

/-- What the encoder appends for one parameter. -/
def encodeParameter (params : TransportParameters) : TransportParameterId → Except Error Bytes
  | .originalDestinationConnectionId =>
    encodeIfSome (encodeConnectionId .originalDestinationConnectionId)
      params.originalDestinationConnectionId
  | .maxIdleTimeout => encodeUnlessDefault .maxIdleTimeout params.maxIdleTimeout 0
  | .statelessResetToken =>
    encodeIfSome (fun token : Vector UInt8 16 =>
      encodeTransportParameter TransportParameterId.statelessResetToken.toInt token.toList)
      params.statelessResetToken
  | .maxUdpPayloadSize =>
    encodeUnlessDefault .maxUdpPayloadSize params.maxUdpPayloadSize defaultMaxUdpPayloadSize
  | .initialMaxData => encodeUnlessDefault .initialMaxData params.initialMaxData 0
  | .initialMaxStreamDataBidiLocal =>
    encodeUnlessDefault .initialMaxStreamDataBidiLocal params.initialMaxStreamDataBidiLocal 0
  | .initialMaxStreamDataBidiRemote =>
    encodeUnlessDefault .initialMaxStreamDataBidiRemote params.initialMaxStreamDataBidiRemote 0
  | .initialMaxStreamDataUni =>
    encodeUnlessDefault .initialMaxStreamDataUni params.initialMaxStreamDataUni 0
  | .initialMaxStreamsBidi =>
    encodeUnlessDefault .initialMaxStreamsBidi params.initialMaxStreamsBidi 0
  | .initialMaxStreamsUni => encodeUnlessDefault .initialMaxStreamsUni params.initialMaxStreamsUni 0
  | .ackDelayExponent =>
    encodeUnlessDefault .ackDelayExponent params.ackDelayExponent defaultAckDelayExponent
  | .maxAckDelay => encodeUnlessDefault .maxAckDelay params.maxAckDelay defaultMaxAckDelayMs
  | .disableActiveMigration => encodeFlag .disableActiveMigration params.disableActiveMigration
  | .preferredAddress =>
    encodeIfSome encodePreferredAddressTransportParameter params.preferredAddress
  | .activeConnectionIdLimit =>
    encodeUnlessDefault .activeConnectionIdLimit params.activeConnectionIdLimit
      defaultActiveConnectionIdLimit
  | .initialSourceConnectionId =>
    encodeIfSome (encodeConnectionId .initialSourceConnectionId) params.initialSourceConnectionId
  | .retrySourceConnectionId =>
    encodeIfSome (encodeConnectionId .retrySourceConnectionId) params.retrySourceConnectionId
  | .versionInformation =>
    encodeIfSome encodeVersionInformationTransportParameter params.versionInformation
  | .maxDatagramFrameSize =>
    encodeIfSome (encodeIntegerTransportParameter .maxDatagramFrameSize) params.maxDatagramFrameSize
  | .greaseQuicBit => encodeFlag .greaseQuicBit params.greaseQuicBit
  | .minAckDelay => encodeIfSome (encodeIntegerTransportParameter .minAckDelay) params.minAckDelay

/-- One parameter after the other. -/
def encodeParameters (params : TransportParameters) :
    List TransportParameterId → Except Error Bytes
  | [] => .ok []
  | id :: rest => do
    let word ← encodeParameter params id
    let words ← encodeParameters params rest
    return word ++ words

/-- The bytes appended to the list. -/
def encodeTransportParametersForSource (params : TransportParameters)
    (source : TransportParameterSource) : Except Error Bytes := do
  validateTransportParameters params source
  encodeParameters params TransportParameterId.all

inductive AppendError where
  | invalid (error : Error)
  | outOfMemory
deriving DecidableEq

/-- Appends to a list; `refused` tells for which parameters the list cannot grow. -/
def appendParameters (params : TransportParameters) (refused : TransportParameterId → Bool) :
    List TransportParameterId → Bytes → Except AppendError Unit × Bytes
  | [], list => (.ok (), list)
  | id :: rest, list =>
    match encodeParameter params id with
    | .error e => (.error (.invalid e), list)
    | .ok word =>
      if word ≠ [] ∧ refused id = true then (.error .outOfMemory, list)
      else appendParameters params refused rest (list ++ word)

/-- `encodeTransportParametersForSource` with the list and its allocator. -/
def appendTransportParametersForSource (params : TransportParameters)
    (source : TransportParameterSource) (refused : TransportParameterId → Bool) (list : Bytes) :
    Except AppendError Unit × Bytes :=
  match validateTransportParameters params source with
  | .error e => (.error (.invalid e), list)
  | .ok () => appendParameters params refused TransportParameterId.all list

namespace TransportParameters

/-- Whether the encoder has something to write for a parameter. -/
def present (params : TransportParameters) : TransportParameterId → Bool
  | .originalDestinationConnectionId => params.originalDestinationConnectionId.isSome
  | .maxIdleTimeout => params.maxIdleTimeout != 0
  | .statelessResetToken => params.statelessResetToken.isSome
  | .maxUdpPayloadSize => params.maxUdpPayloadSize != defaultMaxUdpPayloadSize
  | .initialMaxData => params.initialMaxData != 0
  | .initialMaxStreamDataBidiLocal => params.initialMaxStreamDataBidiLocal != 0
  | .initialMaxStreamDataBidiRemote => params.initialMaxStreamDataBidiRemote != 0
  | .initialMaxStreamDataUni => params.initialMaxStreamDataUni != 0
  | .initialMaxStreamsBidi => params.initialMaxStreamsBidi != 0
  | .initialMaxStreamsUni => params.initialMaxStreamsUni != 0
  | .ackDelayExponent => params.ackDelayExponent != defaultAckDelayExponent
  | .maxAckDelay => params.maxAckDelay != defaultMaxAckDelayMs
  | .disableActiveMigration => params.disableActiveMigration
  | .preferredAddress => params.preferredAddress.isSome
  | .activeConnectionIdLimit => params.activeConnectionIdLimit != defaultActiveConnectionIdLimit
  | .initialSourceConnectionId => params.initialSourceConnectionId.isSome
  | .retrySourceConnectionId => params.retrySourceConnectionId.isSome
  | .versionInformation => params.versionInformation.isSome
  | .maxDatagramFrameSize => params.maxDatagramFrameSize.isSome
  | .greaseQuicBit => params.greaseQuicBit
  | .minAckDelay => params.minAckDelay.isSome

/-- A value that is looked at only when it is written: nothing checks it before. -/
def OutOfRange (params : TransportParameters) : TransportParameterId → Prop
  | .maxIdleTimeout => maxIdleTimeoutMsCap < params.maxIdleTimeout
  | .initialMaxData => varintMax < params.initialMaxData
  | .initialMaxStreamDataBidiLocal => varintMax < params.initialMaxStreamDataBidiLocal
  | .initialMaxStreamDataBidiRemote => varintMax < params.initialMaxStreamDataBidiRemote
  | .initialMaxStreamDataUni => varintMax < params.initialMaxStreamDataUni
  | .versionInformation => ∃ info, params.versionInformation = some info ∧
      varintMax < 4 + info.availableVersionsWire.length
  | _ => False

end TransportParameters

/-! ### Decoding -/

/-- A whole value, read by a cursor of its own. -/
def readWhole {α : Type} (r : Cursor α) (value : Bytes) : Except Error α :=
  match r value with
  | .error e => .error e
  | .ok (a, []) => .ok a
  | .ok (_, _ :: _) => .error .invalidTransportParameterLength

def parseTransportInteger (id : TransportParameterId) (value : Bytes) : Except Error Nat := do
  if value.length = 0 then throw .invalidTransportParameterLength
  let parsed ← readWhole decode value
  validateTransportInteger id parsed
  return parsed

/-- `cursor.readInt(u16, .big)` -/
def readU16 : Cursor UInt16 := do
  let bytes ← readSlice 2
  return UInt16.ofNat (ofBigEndian bytes)

def preferredAddressFields : Cursor PreferredAddress := do
  let ipv4Address ← readArray 4
  let ipv4Port ← readU16
  let ipv6Address ← readArray 16
  let ipv6Port ← readU16
  let cidLen ← readByte
  let connectionId ← readSlice cidLen.toNat
  check (validateTransportConnectionId connectionId true)
  let statelessResetToken ← readArray 16
  return { ipv4Address, ipv4Port, ipv6Address, ipv6Port, connectionId, statelessResetToken }

def parsePreferredAddress (value : Bytes) : Except Error PreferredAddress :=
  readWhole preferredAddressFields value

def parseVersionInformation (value : Bytes) : Except Error VersionInformation := do
  if value.length < 4 ∨ value.length % 4 ≠ 0 then throw .invalidTransportParameterLength
  let info : VersionInformation :=
    { chosenVersion := readU32 (value.take 4), availableVersionsWire := value.drop 4 }
  validateVersionInformation info
  return info

/-- A parameter only a server may send. -/
def requireServer (source : TransportParameterSource) : Except Error Unit :=
  if source = .client then .error .transportParameterForbidden else .ok ()

def parseConnectionId (value : Bytes) : Except Error Bytes := do
  validateTransportConnectionId value false
  return value

def parseResetToken (value : Bytes) : Except Error (Vector UInt8 16) :=
  if h : value.length = 16 then .ok ⟨value.toArray, h⟩ else .error .invalidTransportParameterLength

def parseFlag (value : Bytes) : Except Error Bool :=
  if value.length ≠ 0 then .error .invalidTransportParameterLength else .ok true

/-- What the decoder does with the value of one known parameter. -/
def parseParameter (source : TransportParameterSource) (value : Bytes)
    (params : TransportParameters) : TransportParameterId → Except Error TransportParameters
  | .originalDestinationConnectionId => do
    requireServer source
    let cid ← parseConnectionId value
    return { params with originalDestinationConnectionId := some cid }
  | .maxIdleTimeout => do
    let n ← parseTransportInteger .maxIdleTimeout value
    return { params with maxIdleTimeout := n }
  | .statelessResetToken => do
    requireServer source
    let token ← parseResetToken value
    return { params with statelessResetToken := some token }
  | .maxUdpPayloadSize => do
    let n ← parseTransportInteger .maxUdpPayloadSize value
    return { params with maxUdpPayloadSize := n }
  | .initialMaxData => do
    let n ← parseTransportInteger .initialMaxData value
    return { params with initialMaxData := n }
  | .initialMaxStreamDataBidiLocal => do
    let n ← parseTransportInteger .initialMaxStreamDataBidiLocal value
    return { params with initialMaxStreamDataBidiLocal := n }
  | .initialMaxStreamDataBidiRemote => do
    let n ← parseTransportInteger .initialMaxStreamDataBidiRemote value
    return { params with initialMaxStreamDataBidiRemote := n }
  | .initialMaxStreamDataUni => do
    let n ← parseTransportInteger .initialMaxStreamDataUni value
    return { params with initialMaxStreamDataUni := n }
  | .initialMaxStreamsBidi => do
    let n ← parseTransportInteger .initialMaxStreamsBidi value
    return { params with initialMaxStreamsBidi := n }
  | .initialMaxStreamsUni => do
    let n ← parseTransportInteger .initialMaxStreamsUni value
    return { params with initialMaxStreamsUni := n }
  | .ackDelayExponent => do
    let n ← parseTransportInteger .ackDelayExponent value
    return { params with ackDelayExponent := n }
  | .maxAckDelay => do
    let n ← parseTransportInteger .maxAckDelay value
    return { params with maxAckDelay := n }
  | .disableActiveMigration => do
    let flag ← parseFlag value
    return { params with disableActiveMigration := flag }
  | .preferredAddress => do
    requireServer source
    let preferred ← parsePreferredAddress value
    return { params with preferredAddress := some preferred }
  | .activeConnectionIdLimit => do
    let n ← parseTransportInteger .activeConnectionIdLimit value
    return { params with activeConnectionIdLimit := n }
  | .initialSourceConnectionId => do
    let cid ← parseConnectionId value
    return { params with initialSourceConnectionId := some cid }
  | .retrySourceConnectionId => do
    requireServer source
    let cid ← parseConnectionId value
    return { params with retrySourceConnectionId := some cid }
  | .versionInformation => do
    let info ← parseVersionInformation value
    return { params with versionInformation := some info }
  | .maxDatagramFrameSize => do
    let n ← parseTransportInteger .maxDatagramFrameSize value
    return { params with maxDatagramFrameSize := some n }
  | .greaseQuicBit => do
    let flag ← parseFlag value
    return { params with greaseQuicBit := flag }
  | .minAckDelay => do
    let n ← parseTransportInteger .minAckDelay value
    return { params with minAckDelay := some n }

/-- Unknown parameters are ignored. -/
def parseKnown (source : TransportParameterSource) (id : Nat) (value : Bytes)
    (params : TransportParameters) : Except Error TransportParameters :=
  match TransportParameterId.ofInt id with
  | some parameter => parseParameter source value params parameter
  | none => .ok params

/-- The length and the value behind an identifier. -/
def readValue : Cursor Bytes := do
  let len ← decodeUsize
  readSlice len

/-- The loop of `transportParameterCount`; a parameter takes a byte, so the fuel lasts. -/
def countParameters : Nat → Bytes → Except Error Nat
  | _, [] => .ok 0
  | 0, _ :: _ => .error .bufferTooShort
  | fuel + 1, b :: bytes => do
    let (_, rest) ← decode (b :: bytes)
    let (_, rest) ← readValue rest
    let count ← countParameters fuel rest
    return count + 1

/-- The loop of `parseTransportParametersTyped`; `seen` holds the identifiers so far. -/
def parseParameters (source : TransportParameterSource) :
    Nat → Bytes → List Nat → TransportParameters → Except Error TransportParameters
  | _, [], _, params => .ok params
  | 0, _ :: _, _, _ => .error .bufferTooShort
  | fuel + 1, b :: bytes, seen, params => do
    let (id, rest) ← decode (b :: bytes)
    if id ∈ seen then throw .duplicateTransportParameter
    let (value, rest) ← readValue rest
    let params ← parseKnown source id value params
    parseParameters source fuel rest (seen ++ [id]) params

def parseTransportParametersTyped (bytes : Bytes) (source : TransportParameterSource) :
    Except Error TransportParameters := do
  let _ ← countParameters bytes.length bytes
  let params ← parseParameters source bytes.length bytes [] {}
  validateTransportParameters params source
  return params

/-- The loop of `parseTransportParameters`, which leaves the values as they are. -/
def splitParameters : Nat → Bytes → Except Error (List (Nat × Bytes))
  | _, [] => .ok []
  | 0, _ :: _ => .error .bufferTooShort
  | fuel + 1, b :: bytes => do
    let (id, rest) ← decode (b :: bytes)
    let (value, rest) ← readValue rest
    let parameters ← splitParameters fuel rest
    return (id, value) :: parameters

def parseTransportParameters (bytes : Bytes) : Except Error (List (Nat × Bytes)) :=
  splitParameters bytes.length bytes

end Netz.Quic
