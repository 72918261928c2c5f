/-
The fan-out of a routed publication (`mqtt/broker.zig`, the part of `enqueuePublishLocked`
behind the router).

The matches of a publication become copies in sessions and deliveries in the queues of online
clients.  A session route is decided once: a durable session takes one copy, an online client
whose session ends with the connection keeps all its matches, and those are merged into one
delivery.  Every raw match reserves a place in its queue first, and a match that finds none is
dropped.
-/
import Netz.Mqtt.SessionDelivery
import Netz.Mqtt.SessionStore

namespace Netz.Mqtt

open Lib

namespace Fanout

/-- A delivery that waits for the writer; the publication is shared and known by its address. -/
structure Delivery where
  publication : Nat
  qos : QoS
  retain : Bool
  subscriptionIdentifier : Option Nat := none
  additionalSubscriptionIdentifiers : List Nat := []

/-- `nextConnectionGeneration` does not give out zero. -/
structure ClientSlot where
  generation : Nat := 0
  active : Bool := false
  numbered : active = true → 0 < generation := by decide
  connected : Bool := false
  sessionHandle : Option Handle := none
  sessionPersistent : Bool := false
  queue : List Delivery := []
  routeReservations : Nat := 0

end Fanout

/-- The part of the broker that a fan-out reads and writes. -/
structure Fanout where
  /-- `options.accept.maximum_qos`. -/
  maximumQos : QoS := .exactlyOnce
  /-- `options.limits.max_queued_deliveries_per_connection`. -/
  maxQueuedDeliveries : Nat := 1024
  sessions : Store
  sessionOwners : Table Nat SubscriberId := []
  slots : List Fanout.ClientSlot

namespace Fanout

open SessionDelivery

/-- Whether the allocations of a session's copy succeed. -/
structure RouteMemory where
  properties : Bool := true
  session : Memory := {}

/-- Whether the allocations of a fan-out succeed: those of the plan, of a route's copy, of the
publication, and of the identifiers that a match adds, by its place among the planned ones. -/
structure FanoutMemory where
  plan : Bool := true
  route : Nat → RouteMemory := fun _ => {}
  publication : Bool := true
  identifiers : Nat → Bool := fun _ => true

/-- `RoutePlan`. -/
structure RoutePlan where
  deliveries : List Match
  sessionTargets : List Match

namespace Delivery

/-- The identifier is looked for among the additional ones. -/
def appendSubscriptionIdentifier (delivery : Delivery) (identifier : Option Nat)
    (memory : Bool) : Except Error Delivery :=
  match identifier with
  | none => .ok delivery
  | some value =>
    if delivery.subscriptionIdentifier = none then
      .ok { delivery with subscriptionIdentifier := some value }
    else if value ∈ delivery.additionalSubscriptionIdentifiers then .ok delivery
    else if memory = false then .error .outOfMemory
    else
      .ok { delivery with
        additionalSubscriptionIdentifiers :=
          delivery.additionalSubscriptionIdentifiers ++ [value] }

/-- `identifiersInto`. -/
def identifiers (delivery : Delivery) : List Nat :=
  delivery.subscriptionIdentifier.toList ++ delivery.additionalSubscriptionIdentifiers

end Delivery

/-! ### Sessions -/

/-- `enqueueSessionDeliveryManyLocked`. -/
def enqueueSessionDeliveryMany (fanout : Fanout) (handle : Handle) (identifiers : List Nat)
    (retain : Bool) (qos : QoS) (publish : Publish) (nowNs : Int) (memory : RouteMemory) :
    Except Error Unit × Fanout :=
  if memory.properties = false then (.error .outOfMemory, fanout)
  else
    let r := fanout.sessions.enqueuePublish handle publish.topic publish.payload qos retain
      (sessionProperties publish.properties identifiers) nowNs memory.session
    let stored := { fanout with sessions := r.2 }
    match r.1 with
    | .ok _ => (.ok (), stored)
    | .error .queueFull => (.ok (), stored)
    | .error e => (.error e, stored)

def slotOwnsSessionRoute (fanout : Fanout) (index : Nat) (slot : ClientSlot)
    (ownerId : SubscriberId) (routeId : Nat) : Bool :=
  slot.active && slot.connected && connectionSubscriberId index slot.generation == ownerId &&
    match slot.sessionHandle with
    | none => false
    | some handle => fanout.sessions.routeId handle == some routeId

/-- The owner of a route, when it is online: its identifier and its slot. -/
def onlineOwner (fanout : Fanout) (routeId : Nat) : Option (SubscriberId × ClientSlot) :=
  match fanout.sessionOwners.get routeId with
  | none => none
  | some ownerId =>
    match connectionIndex ownerId fanout.slots.length with
    | none => none
    | some index =>
      match fanout.slots[index]? with
      | none => none
      | some slot =>
        if fanout.slotOwnsSessionRoute index slot ownerId routeId then some (ownerId, slot)
        else none

/-- One turn of the loop over the routes of the plan. -/
def deliverRoute (fanout : Fanout) (plan : Plan) (publish : Publish) (nowNs : Int)
    (memory : FanoutMemory) (route : Route) : Except Error Route × Fanout :=
  match fanout.sessions.handleForRouteId route.routeId with
  | none => (.ok route, fanout)
  | some handle =>
    let route := { route with qos := route.qos.min fanout.maximumQos }
    let enqueue := fanout.enqueueSessionDeliveryMany handle (plan.identifiersFor route) route.retain
      route.qos publish nowNs (memory.route route.routeId)
    match fanout.onlineOwner route.routeId with
    | none =>
      if route.qos = .atMostOnce then (.ok route, fanout)
      else (enqueue.1.map fun _ => route, enqueue.2)
    | some (ownerId, slot) =>
      if route.qos = .atMostOnce ∨ slot.sessionPersistent = false then
        (.ok { route with outputSubscriberId := ownerId }, fanout)
      else
        (enqueue.1.map fun _ =>
            { route with outputSubscriberId := sessionSubscriberId route.routeId },
          enqueue.2)

def deliverRoutes (fanout : Fanout) (plan : Plan) (publish : Publish) (nowNs : Int)
    (memory : FanoutMemory) : List Route → Except Error (List Route) × Fanout
  | [] => (.ok [], fanout)
  | route :: rest =>
    match fanout.deliverRoute plan publish nowNs memory route with
    | (.error e, fanout) => (.error e, fanout)
    | (.ok route, fanout) =>
      let r := fanout.deliverRoutes plan publish nowNs memory rest
      (r.1.map fun routes => route :: routes, r.2)

/-! ### Targets -/

/-- Every raw match gets the decision of its route. -/
def rewriteMatches : Plan → List Match → List Match
  | _, [] => []
  | plan, m :: rest =>
    match sessionRouteId m.subscriberId with
    | none => m :: rewriteMatches plan rest
    | some routeId =>
      let r := plan.nextOutputSubscriberId routeId
      { m with subscriberId := r.1 } :: rewriteMatches r.2 rest

/-- The loop that swaps the session targets into the tail, backwards from place `count`; the
tail begins at `start`.  A session target has an owner, which was online just before. -/
def partitionTargets (owners : Table Nat SubscriberId) :
    Nat → List Match → Nat → List Match × Nat
  | 0, found, start => (found, start)
  | count + 1, found, start =>
    match found[count]?, found[start - 1]? with
    | some m, some last =>
      match sessionRouteId m.subscriberId with
      | none => partitionTargets owners count found start
      | some routeId =>
        let target := { m with subscriberId := (owners.get routeId).getD 0 }
        partitionTargets owners count ((found.set count last).set (start - 1) target) (start - 1)
    | _, _ => partitionTargets owners count found start

/-! ### Queues -/

/-- The active slot that a connection's subscriber identifier names. -/
def activeSlot (fanout : Fanout) (subscriberId : SubscriberId) : Option (Nat × ClientSlot) :=
  match connectionIndex subscriberId fanout.slots.length with
  | none => none
  | some index =>
    match fanout.slots[index]? with
    | none => none
    | some slot =>
      if slot.active ∧ connectionSubscriberId index slot.generation = subscriberId then
        some (index, slot)
      else none

/-- The matches that find a place, one reservation for each. -/
def reservePlaces : Fanout → List Match → List Match × Fanout
  | fanout, [] => ([], fanout)
  | fanout, m :: rest =>
    if m.subscriberId = 0 then reservePlaces fanout rest
    else
      match fanout.activeSlot m.subscriberId with
      | none => reservePlaces fanout rest
      | some (index, slot) =>
        if fanout.maxQueuedDeliveries ≤ slot.queue.length + slot.routeReservations then
          reservePlaces fanout rest
        else
          let r := reservePlaces
            { fanout with
              slots := fanout.slots.set index
                { slot with routeReservations := slot.routeReservations + 1 } } rest
          (m :: r.1, r.2)

def releaseRouteReservations (fanout : Fanout) (plan : List Match) : Fanout :=
  plan.foldl
    (fun fanout m =>
      match connectionIndex m.subscriberId fanout.slots.length with
      | none => fanout
      | some index =>
        { fanout with
          slots := fanout.slots.modify index fun slot =>
            { slot with routeReservations := slot.routeReservations - 1 } })
    fanout

/-- An address that no queued delivery has. -/
def freshPublication (fanout : Fanout) : Nat :=
  ((fanout.slots.flatMap (·.queue)).map (·.publication)).foldl max 0 + 1

/-- One match of the plan in the queue of its client: merged into the delivery of the
publication when there is one. -/
def mergeMatch (maximumQos : QoS) (publish : Publish) (publication : Nat) (memory : Bool)
    (m : Match) (queue : List Delivery) : Except Error (List Delivery) :=
  let qos := (publish.qos.min m.subscription.qos).min maximumQos
  match queue with
  | [] =>
    .ok [{ publication := publication, qos := qos,
           retain := m.subscription.retainAsPublished && publish.retain,
           subscriptionIdentifier := m.subscriptionIdentifier }]
  | delivery :: rest =>
    if delivery.publication = publication then
      (delivery.appendSubscriptionIdentifier m.subscriptionIdentifier memory).map fun appended =>
        { appended with
          qos := appended.qos.max qos
          retain := appended.retain || (m.subscription.retainAsPublished && publish.retain) }
          :: rest
    else
      (mergeMatch maximumQos publish publication memory m rest).map (delivery :: ·)

/-- The loop over the plan; `count` matches are behind it. -/
def mergePlan (publish : Publish) (publication : Nat) (memory : Nat → Bool) :
    Nat → Fanout → List Match → Except Error Unit × Fanout
  | _, fanout, [] => (.ok (), fanout)
  | count, fanout, m :: rest =>
    match connectionIndex m.subscriberId fanout.slots.length with
    | none => (.error .panic, fanout)
    | some index =>
      match fanout.slots[index]? with
      | none => (.error .panic, fanout)
      | some slot =>
        match mergeMatch fanout.maximumQos publish publication (memory count) m slot.queue with
        | .error e => (.error e, fanout)
        | .ok queue =>
          mergePlan publish publication memory (count + 1)
            { fanout with slots := fanout.slots.set index { slot with queue := queue } } rest

/-- A publication leaves all queues. -/
def removePublication (fanout : Fanout) (publication : Nat) : Fanout :=
  { fanout with
    slots := fanout.slots.map fun slot =>
      { slot with queue := slot.queue.filter (·.publication ≠ publication) } }

/-- `Publication.create`'s only failure that is not the allocator's. -/
def publicationFits (publish : Publish) : Bool :=
  (checkedAdd publish.topic.length publish.payload.length).isSome &&
    (cloneAllProperties (forwardProperties publish.properties)).isSome

/-- The part of `enqueuePublishLocked` from the reservations on. -/
def enqueueLive (fanout : Fanout) (publish : Publish) (live targets : List Match)
    (memory : FanoutMemory) : Except Error RoutePlan × Fanout :=
  let reserved := reservePlaces fanout live
  let plan := reserved.1
  let routes : RoutePlan := { deliveries := plan, sessionTargets := targets }
  if plan = [] then (.ok routes, reserved.2)
  else if publicationFits publish = false then
    (.error .publicationLimitExceeded, reserved.2.releaseRouteReservations plan)
  else if memory.publication = false then
    (.error .outOfMemory, reserved.2.releaseRouteReservations plan)
  else
    let publication := fanout.freshPublication
    let merged := mergePlan publish publication memory.identifiers 0 reserved.2 plan
    match merged.1 with
    | .error e => (.error e, (merged.2.removePublication publication).releaseRouteReservations plan)
    | .ok _ => (.ok routes, merged.2.releaseRouteReservations plan)

/-- The part of `enqueuePublishLocked` behind the router, which found the matches `found`. -/
def enqueueMatches (fanout : Fanout) (publish : Publish) (found : List Match) (nowNs : Int)
    (memory : FanoutMemory) : Except Error RoutePlan × Fanout :=
  if memory.plan = false then (.error .outOfMemory, fanout)
  else
    let plan := Plan.init found publish.qos publish.retain
    let delivered := fanout.deliverRoutes plan publish nowNs memory plan.routes
    match delivered.1 with
    | .error e => (.error e, delivered.2)
    | .ok routes =>
      let rewritten := rewriteMatches { plan with routes := routes } found
      let parted := partitionTargets fanout.sessionOwners rewritten.length rewritten
        rewritten.length
      delivered.2.enqueueLive publish (parted.1.take parted.2) (parted.1.drop parted.2) memory

end Fanout

end Netz.Mqtt
