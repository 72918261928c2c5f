/-
Routes and the aggregation plan of durable sessions (`mqtt/broker/session_route.zig`,
`mqtt/broker/session_delivery.zig`).

A subscriber identifier with the top bit set names a session's route, one without it names the
connection in a slot.  The plan walks the matches of a publication twice: the first pass joins
the matches of each route, the second one collects their subscription identifiers, every route
in its own segment of one array.
-/
import Netz.Lib.Table
import Netz.Mqtt.Topic

namespace Netz.Mqtt

open Lib

abbrev SubscriberId := Nat

/-! ### Subscriber identifiers -/

def sessionSubscriberTag : Nat := 2 ^ 63

/-- The tag and a route identifier below it. -/
def sessionSubscriberId (routeId : Nat) : SubscriberId := sessionSubscriberTag + routeId

def sessionRouteId (id : SubscriberId) : Option Nat :=
  if id < sessionSubscriberTag then none else some (id - sessionSubscriberTag)

def connectionSubscriberId (index generation : Nat) : SubscriberId := generation * 2 ^ 32 + index

def connectionIndex (id : SubscriberId) (count : Nat) : Option Nat :=
  if (sessionRouteId id).isSome then none
  else if id % 2 ^ 32 < count then some (id % 2 ^ 32)
  else none

/-- `router.Match`. -/
structure Match where
  subscriberId : SubscriberId
  subscription : Subscription
  subscriptionIdentifier : Option Nat := none

namespace SessionDelivery

structure Route where
  routeId : Nat
  qos : QoS
  retain : Bool
  identifierOffset : Nat := 0
  identifierCapacity : Nat := 0
  identifierCount : Nat := 0
  /-- Zero drops the matches of the route. -/
  outputSubscriberId : SubscriberId := 0
  durableTargetEmitted : Bool := false

structure Plan where
  routes : List Route := []
  identifiers : List Nat := []
  routeIndex : Table Nat Nat := []

namespace Plan

/-- The route joins one more match. -/
def join (sourceQos : QoS) (sourceRetain : Bool) (m : Match) (route : Route) : Route :=
  { route with
    qos := route.qos.max (sourceQos.min m.subscription.qos)
    retain := route.retain || (sourceRetain && m.subscription.retainAsPublished)
    identifierCapacity :=
      route.identifierCapacity + if m.subscriptionIdentifier.isSome then 1 else 0 }

/-- The first match of a route. -/
def found (sourceQos : QoS) (sourceRetain : Bool) (m : Match) (routeId : Nat) : Route :=
  { routeId := routeId
    qos := sourceQos.min m.subscription.qos
    retain := sourceRetain && m.subscription.retainAsPublished
    identifierCapacity := if m.subscriptionIdentifier.isSome then 1 else 0 }

/-- One match of the first pass. -/
def collect (sourceQos : QoS) (sourceRetain : Bool) (plan : Plan) (m : Match) : Plan :=
  match sessionRouteId m.subscriberId with
  | none => plan
  | some routeId =>
    match plan.routeIndex.get routeId with
    | none =>
      { plan with
        routes := plan.routes ++ [found sourceQos sourceRetain m routeId]
        routeIndex := plan.routeIndex.put routeId plan.routes.length }
    | some index => { plan with routes := plan.routes.modify index (join sourceQos sourceRetain m) }

/-- Every route gets the segment behind the one before it. -/
def assignOffsets : Nat → List Route → List Route
  | _, [] => []
  | next, route :: rest =>
    { route with identifierOffset := next } :: assignOffsets (next + route.identifierCapacity) rest

def identifiersFor (plan : Plan) (route : Route) : List Nat :=
  (plan.identifiers.drop route.identifierOffset).take route.identifierCount

/-- One match of the second pass. -/
def compact (plan : Plan) (m : Match) : Plan :=
  match m.subscriptionIdentifier, sessionRouteId m.subscriberId with
  | some identifier, some routeId =>
    match plan.routeIndex.get routeId with
    | none => plan
    | some index =>
      match plan.routes[index]? with
      | none => plan
      | some route =>
        if identifier ∈ plan.identifiersFor route then plan
        else
          { plan with
            identifiers :=
              plan.identifiers.set (route.identifierOffset + route.identifierCount) identifier
            routes :=
              plan.routes.set index { route with identifierCount := route.identifierCount + 1 } }
  | _, _ => plan

/-- The storage behind the segments; what it holds before the second pass is not read. -/
def reserve (plan : Plan) : Plan :=
  { plan with
    routes := assignOffsets 0 plan.routes
    identifiers := List.replicate (plan.routes.map (·.identifierCapacity)).sum 0 }

def init (found : List Match) (sourceQos : QoS) (sourceRetain : Bool) : Plan :=
  found.foldl compact (found.foldl (collect sourceQos sourceRetain) {}).reserve

def routeForId (plan : Plan) (routeId : Nat) : Option Route :=
  match plan.routeIndex.get routeId with
  | none => none
  | some index => plan.routes[index]?

/-- A transient route keeps all its matches, a durable one only the first. -/
def nextOutputSubscriberId (plan : Plan) (routeId : Nat) : SubscriberId × Plan :=
  match plan.routeIndex.get routeId with
  | none => (0, plan)
  | some index =>
    match plan.routes[index]? with
    | none => (0, plan)
    | some route =>
      if (sessionRouteId route.outputSubscriberId).isNone then (route.outputSubscriberId, plan)
      else if route.durableTargetEmitted then (0, plan)
      else
        (route.outputSubscriberId,
          { plan with routes := plan.routes.set index { route with durableTargetEmitted := true } })

end Plan

end SessionDelivery

end Netz.Mqtt
