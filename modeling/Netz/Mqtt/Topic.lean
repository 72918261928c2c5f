/-
Topic Names and Topic Filters (`mqtt/mod.zig`).

A filter is a list of levels between slashes; `+` stands for one level and a trailing `#` for
the rest, its parent included.  A shared filter `$share/{ShareName}/{TopicFilter}` wraps a
filter of its own.
-/
import Netz.Mqtt.Packet

namespace Netz.Mqtt

/-- `std.mem.splitScalar` at the slashes; there is always a first level. -/
def splitLevels : Bytes → List Bytes
  | [] => [[]]
  | b :: rest =>
    if b = slash then [] :: splitLevels rest
    else
      match splitLevels rest with
      | [] => [[b]]
      | level :: levels => (b :: level) :: levels

/-- `"$share/"`. -/
def sharePrefix : Bytes := [0x24, 0x73, 0x68, 0x61, 0x72, 0x65, 0x2f]

/-- The two parts of what stands behind `$share/`, when there is a slash between them. -/
def splitShare (rest : Bytes) : Option (Bytes × Bytes) :=
  match rest.dropWhile (· != slash) with
  | [] => none
  | _ :: inner => some (rest.takeWhile (· != slash), inner)

/-- The loop of `validTopicFilterLevels`. -/
def validLevels : List Bytes → Bool
  | [] => true
  | level :: rest =>
    if level.contains hash then level.length == 1 && rest.isEmpty
    else if level.contains plus && level.length != 1 then false
    else validLevels rest

def validTopicFilterLevels (filter : Bytes) : Bool :=
  if filter.length = 0 then false else validLevels (splitLevels filter)

def sharedTopicFilterInner (filter : Bytes) : Option Bytes :=
  if sharePrefix.isPrefixOf filter = false then none
  else
    match splitShare (filter.drop sharePrefix.length) with
    | none => none
    | some (group, sharedFilter) =>
      if group.length = 0 ∨ validMqttUtf8 group = false ∨ hasWildcards group = true then none
      else if validTopicFilterLevels sharedFilter = false then none
      else some sharedFilter

def validTopicFilter (filter : Bytes) : Bool :=
  if validMqttUtf8 filter = false then false
  else if sharePrefix.isPrefixOf filter then (sharedTopicFilterInner filter).isSome
  else validTopicFilterLevels filter

def validateTopicFilter (filter : Bytes) : Except Error Unit :=
  if validTopicFilter filter then .ok () else .error .invalidSubscription

/-- The loop of `topicMatchesFilter`. -/
def levelsMatch : List Bytes → List Bytes → Bool
  | [], topicLevels => topicLevels.isEmpty
  | filterLevel :: filterLevels, topicLevels =>
    if filterLevel = [hash] then true
    else
      match topicLevels with
      | [] => false
      | topicLevel :: topicLevels =>
        if filterLevel = [plus] then levelsMatch filterLevels topicLevels
        else if filterLevel = topicLevel then levelsMatch filterLevels topicLevels
        else false

/-- The value starts with `$`. -/
def startsWithDollar (value : Bytes) : Bool := value.head? == some dollar

/-- The filter behind the share prefix is matched, and a leading wildcard of it does not match
a topic that starts with `$`. -/
def topicMatchesFilter (topic filter : Bytes) : Bool :=
  let matchesEffective := fun effective =>
    if startsWithDollar topic && !startsWithDollar effective then false
    else levelsMatch (splitLevels effective) (splitLevels topic)
  if sharePrefix.isPrefixOf filter then
    match sharedTopicFilterInner filter with
    | none => false
    | some effective => matchesEffective effective
  else matchesEffective filter

/-- `mqtt.Subscription`. -/
structure Subscription where
  topicFilter : Bytes
  qos : QoS := .atMostOnce
  noLocal : Bool := false
  retainAsPublished : Bool := false
  retainHandling : Nat := 0
deriving DecidableEq

/-- The bounds of a Subscription Identifier, `null` included. -/
def validSubscriptionIdentifier : Option Nat → Bool
  | none => true
  | some identifier => decide (identifier ≠ 0) && decide (identifier ≤ 268435455)

end Netz.Mqtt
