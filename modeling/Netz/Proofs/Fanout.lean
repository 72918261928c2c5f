/-
Where the matches of a publication go.

Copies for sessions change no session's route, so every route is decided as on the state before
the call.  From the decisions follows what the rewrite leaves of an online client's matches: all
of them, in order.  The swaps that part the session targets from them may reorder them.
-/
import Netz.Lib.SwapRemove
import Netz.Mqtt.Fanout
import Netz.Proofs.DeliveryPlan
import Netz.Proofs.SessionStore

namespace Netz.Mqtt

open Lib SessionDelivery List Option

/-! ### Routes of sessions -/

/-- The calls that store messages leave every session its handle and its route. -/
structure Store.SameRoutes (store store' : Store) : Prop where
  index : store'.routeIndex = store.routeIndex
  sessions : ∀ i, (store'.sessionAt i).map (fun s => (s.generation, s.routeId)) =
    (store.sessionAt i).map fun s => (s.generation, s.routeId)

namespace Store.SameRoutes

variable {store store' store'' : Store}

lemma refl (store : Store) : SameRoutes store store := ⟨rfl, fun _ => rfl⟩

lemma trans (h : SameRoutes store store') (h' : SameRoutes store' store'') :
    SameRoutes store store'' :=
  ⟨h'.index.trans h.index, fun i => (h'.sessions i).trans (h.sessions i)⟩

lemma putBack {index : Nat} {session : Session} {held : Held}
    (hses : store.sessionAt index = some session)
    (hgen : held.session.generation = session.generation)
    (hroute : held.session.routeId = session.routeId) :
    SameRoutes store (store.putBack index held) := by
  refine ⟨rfl, fun i => ?_⟩
  have hslot := sessionAt_eq_some hses
  unfold Store.putBack sessionAt
  rw [List.getElem?_set]
  by_cases hi : index = i
  · subst hi
    rw [if_pos (lt_of_getElem? hslot), hslot]
    simp [hgen, hroute]
  · rw [if_neg hi]

lemma routeId (h : SameRoutes store store') (handle : Handle) :
    store'.routeId handle = store.routeId handle := by
  have hat := h.sessions handle.index
  unfold Store.routeId getSession
  cases hold : store.sessionAt handle.index with
  | none =>
    rw [hold, map_none, map_eq_none_iff] at hat
    rw [hat]
  | some session =>
    rw [hold, map_some, map_eq_some_iff] at hat
    obtain ⟨session', hnew, hsame⟩ := hat
    rw [Prod.mk.injEq] at hsame
    simp [hnew, filter_some, hsame.1, hsame.2]

lemma handleForRouteId (h : SameRoutes store store') (routeId : Nat) :
    store'.handleForRouteId routeId = store.handleForRouteId routeId := by
  unfold Store.handleForRouteId
  rw [h.index]
  cases store.routeIndex.get routeId with
  | none => rfl
  | some index =>
    have hat := congrArg (Option.map fun pair : Nat × Nat => (⟨index, pair.1⟩ : Handle))
      (h.sessions index)
    rw [Option.map_map, Option.map_map] at hat
    exact hat

end Store.SameRoutes

lemma Session.makeQueueRoom_route (session : Session) (maxQueued : Nat) :
    (session.makeQueueRoom maxQueued).generation = session.generation ∧
      (session.makeQueueRoom maxQueued).routeId = session.routeId := by
  unfold makeQueueRoom
  split
  · exact ⟨rfl, rfl⟩
  split
  · exact ⟨rfl, rfl⟩
  · exact ⟨rfl, rfl⟩

lemma Store.enqueueOwned_sameRoutes {store : Store} {index : Nat} {session : Session}
    (hses : store.sessionAt index = some session) (publish : OwnedPublish) (memory : Memory) :
    SameRoutes store (store.enqueueOwned index session publish memory).2 := by
  have hroomy := session.makeQueueRoom_route store.options.maxQueuedPerSession
  unfold enqueueOwned
  split
  · exact .refl store
  dsimp only
  split
  · exact .putBack hses hroomy.1 hroomy.2
  · exact .putBack hses hroomy.1 hroomy.2

lemma Store.enqueuePublish_sameRoutes (store : Store) (handle : Handle) (topic payload : Bytes)
    (qos : QoS) (retain : Bool) (properties : List Property) (nowNs : Int) (memory : Memory) :
    SameRoutes store
      (store.enqueuePublish handle topic payload qos retain properties nowNs memory).2 := by
  unfold enqueuePublish
  split
  · exact .refl store
  split
  · exact .refl store
  next session hses =>
    split
    · exact .refl store
    split
    · exact .refl store
    split
    · exact .refl store
    split
    · exact .refl store
    · unfold getSession at hses
      exact enqueueOwned_sameRoutes (eq_some_of_filter_eq_some hses) _ memory

lemma ok_of_map_eq_ok {α β : Type} {x : Except Error α} {f : α → β} {b : β}
    (h : x.map f = .ok b) : ∃ a, x = .ok a ∧ f a = b := by
  cases x with
  | error e => cases h
  | ok a => exact ⟨a, rfl, Except.ok.inj h⟩

namespace Fanout

/-! ### Decisions -/

/-- A fan-out that has stored copies: the same slots and owners, and the same routes. -/
structure Stored (fanout fanout' : Fanout) : Prop where
  routes : Store.SameRoutes fanout.sessions fanout'.sessions
  rest : fanout' = { fanout with sessions := fanout'.sessions }

lemma Stored.refl (fanout : Fanout) : Stored fanout fanout := ⟨.refl _, rfl⟩

lemma Stored.trans {fanout fanout' fanout'' : Fanout} (h : Stored fanout fanout')
    (h' : Stored fanout' fanout'') : Stored fanout fanout'' := by
  refine ⟨h.routes.trans h'.routes, ?_⟩
  rw [h'.rest, h.rest]

lemma enqueueSessionDeliveryMany_stored (fanout : Fanout) (handle : Handle)
    (identifiers : List Nat) (retain : Bool) (qos : QoS) (publish : Publish) (nowNs : Int)
    (memory : RouteMemory) :
    Stored fanout (fanout.enqueueSessionDeliveryMany handle identifiers retain qos publish nowNs
      memory).2 := by
  have hroutes := fanout.sessions.enqueuePublish_sameRoutes handle publish.topic publish.payload
    qos retain (sessionProperties publish.properties identifiers) nowNs memory.session
  unfold enqueueSessionDeliveryMany
  by_cases hprops : memory.properties = false
  · rw [if_pos hprops]
    exact .refl fanout
  rw [if_neg hprops]
  dsimp only
  split
  · exact ⟨hroutes, rfl⟩
  · exact ⟨hroutes, rfl⟩
  · exact ⟨hroutes, rfl⟩

/-- What the loop over the routes decides about a route. -/
def decided (fanout : Fanout) (route : Route) : Route :=
  match fanout.sessions.handleForRouteId route.routeId with
  | none => route
  | some _ =>
    let route := { route with qos := route.qos.min fanout.maximumQos }
    match fanout.onlineOwner route.routeId with
    | none => route
    | some (ownerId, slot) =>
      { route with
        outputSubscriberId :=
          if route.qos = .atMostOnce ∨ slot.sessionPersistent = false then ownerId
          else sessionSubscriberId route.routeId }

lemma Stored.decided {fanout fanout' : Fanout} (h : Stored fanout fanout') (route : Route) :
    fanout'.decided route = fanout.decided route := by
  have howner : fanout'.onlineOwner route.routeId = fanout.onlineOwner route.routeId := by
    unfold onlineOwner slotOwnsSessionRoute
    rw [h.rest]
    simp only [h.routes.routeId]
  unfold Fanout.decided
  rw [h.routes.handleForRouteId]
  dsimp only
  rw [howner, h.rest]

lemma deliverRoute_stored (fanout : Fanout) (plan : Plan) (publish : Publish) (nowNs : Int)
    (memory : FanoutMemory) (route : Route) :
    Stored fanout (fanout.deliverRoute plan publish nowNs memory route).2 := by
  unfold deliverRoute
  split
  · exact .refl fanout
  dsimp only
  split
  · split
    · exact .refl fanout
    · exact enqueueSessionDeliveryMany_stored ..
  split
  · exact .refl fanout
  · exact enqueueSessionDeliveryMany_stored ..

lemma deliverRoute_decided {fanout : Fanout} {plan : Plan} {publish : Publish} {nowNs : Int}
    {memory : FanoutMemory} {route route' : Route}
    (h : (fanout.deliverRoute plan publish nowNs memory route).1 = .ok route') :
    route' = fanout.decided route := by
  unfold deliverRoute at h
  unfold decided
  cases hhandle : fanout.sessions.handleForRouteId route.routeId with
  | none =>
    rw [hhandle] at h
    exact (Except.ok.inj h).symm
  | some handle =>
    rw [hhandle] at h
    dsimp only at h ⊢
    cases howner : fanout.onlineOwner route.routeId with
    | none =>
      rw [howner] at h
      dsimp only at h ⊢
      split at h
      · exact (Except.ok.inj h).symm
      · obtain ⟨_, -, hroute⟩ := ok_of_map_eq_ok h
        exact hroute.symm
    | some owner =>
      rw [howner] at h
      dsimp only at h ⊢
      split at h
      · next hlive =>
          rw [if_pos hlive]
          exact (Except.ok.inj h).symm
      next hdurable =>
        rw [if_neg hdurable]
        obtain ⟨_, -, hroute⟩ := ok_of_map_eq_ok h
        exact hroute.symm

/-- **The routes behind the loop** are decided as the state before it has it. -/
theorem deliverRoutes_spec (plan : Plan) (publish : Publish) (nowNs : Int) (memory : FanoutMemory)
    (routes : List Route) (fanout : Fanout) :
    Stored fanout (fanout.deliverRoutes plan publish nowNs memory routes).2 ∧
      ∀ routes', (fanout.deliverRoutes plan publish nowNs memory routes).1 = .ok routes' →
        routes' = routes.map fanout.decided := by
  induction routes generalizing fanout with
  | nil => exact ⟨.refl fanout, fun routes' h => (Except.ok.inj h).symm⟩
  | cons route rest ih =>
    unfold deliverRoutes
    have hstored := fanout.deliverRoute_stored plan publish nowNs memory route
    have hdec := @deliverRoute_decided fanout plan publish nowNs memory route
    rcases hrun : fanout.deliverRoute plan publish nowNs memory route with ⟨e | route', next⟩
    · rw [hrun] at hstored
      exact ⟨hstored, fun routes' h => by cases h⟩
    rw [hrun] at hstored hdec
    obtain ⟨hrest, hmap⟩ := ih next
    refine ⟨hstored.trans hrest, fun routes' h => ?_⟩
    obtain ⟨later, hlater, hroutes⟩ := ok_of_map_eq_ok h
    have hsame : rest.map next.decided = rest.map fanout.decided :=
      map_congr_left fun other _ => hstored.decided other
    rw [← hroutes, hmap later hlater, hdec rfl, hsame, map_cons]

/-! ### The rewrite -/

end Fanout

namespace SessionDelivery.Plan

/-- The subscriber identifier that the plan leaves in the matches of a route. -/
def output (plan : Plan) (routeId : Nat) : Option SubscriberId :=
  (plan.routeForId routeId).map (·.outputSubscriberId)

lemma output_next (plan : Plan) (routeId other : Nat) :
    (plan.nextOutputSubscriberId routeId).2.output other = plan.output other := by
  unfold nextOutputSubscriberId
  cases plan.routeIndex.get routeId with
  | none => rfl
  | some index =>
    dsimp only
    cases hroute : plan.routes[index]? with
    | none => rfl
    | some route =>
      dsimp only
      split
      · rfl
      split
      · rfl
      unfold output routeForId
      cases plan.routeIndex.get other with
      | none => rfl
      | some place =>
        dsimp only
        rw [getElem?_set]
        by_cases hplace : index = place
        · subst hplace
          rw [if_pos rfl, if_pos (lt_of_getElem? hroute), hroute]
          rfl
        · rw [if_neg hplace]

/-- A connection's identifier is left in every match of the route. -/
theorem next_of_output {plan : Plan} {routeId : Nat} {id : SubscriberId}
    (h : plan.output routeId = some id) (hid : sessionRouteId id = none) :
    (plan.nextOutputSubscriberId routeId).1 = id := by
  unfold output routeForId at h
  unfold nextOutputSubscriberId
  cases hget : plan.routeIndex.get routeId with
  | none =>
    rw [hget] at h
    cases h
  | some index =>
    rw [hget] at h
    obtain ⟨route, hroute, hout⟩ := map_eq_some_iff.mp h
    simp [hroute, hout, hid]

/-- What is left in a match is what the route puts out, or zero. -/
theorem next_eq (plan : Plan) (routeId : Nat) :
    (plan.nextOutputSubscriberId routeId).1 = 0 ∨
      plan.output routeId = some (plan.nextOutputSubscriberId routeId).1 := by
  unfold nextOutputSubscriberId output routeForId
  cases plan.routeIndex.get routeId with
  | none => exact .inl rfl
  | some index =>
    dsimp only
    cases plan.routes[index]? with
    | none => exact .inl rfl
    | some route =>
      dsimp only
      split
      · exact .inr rfl
      split
      · exact .inl rfl
      · exact .inr rfl

end SessionDelivery.Plan

namespace Fanout

/-- The matches of a client: those of its session's route and those of its connection. -/
def reaches (id : SubscriberId) (routeId : Nat) (m : Match) : Bool :=
  m.subscriberId == id || sessionRouteId m.subscriberId == some routeId

def withSubscriber (id : SubscriberId) (m : Match) : Match := { m with subscriberId := id }

/-- **The rewrite keeps all matches of a client**, in order, when its route puts out the
connection and no other route does. -/
theorem rewriteMatches_filter {id : SubscriberId} {routeId : Nat} (hid : sessionRouteId id = none)
    (hzero : id ≠ 0) (found : List Match) (plan : Plan)
    (hroute : ∀ m ∈ found, sessionRouteId m.subscriberId = some routeId →
      plan.output routeId = some id)
    (hothers : ∀ other, other ≠ routeId → plan.output other ≠ some id) :
    (rewriteMatches plan found).filter (·.subscriberId == id) =
      (found.filter (reaches id routeId)).map (withSubscriber id) := by
  induction found generalizing plan with
  | nil => rfl
  | cons m rest ih =>
    unfold rewriteMatches
    cases hm : sessionRouteId m.subscriberId with
    | none =>
      have hrest := ih plan (fun other hother => hroute other (mem_cons_of_mem m hother))
        hothers
      by_cases hself : m.subscriberId = id
      · have hreach : reaches id routeId m = true := by simp [hself, reaches]
        rw [filter_cons_of_pos (by simpa using hself), filter_cons_of_pos hreach, hrest]
        simp [← hself, withSubscriber]
      have hreach : ¬ reaches id routeId m = true := by
        unfold reaches
        rw [hm]
        simpa using hself
      rw [filter_cons_of_neg (by simpa using hself), filter_cons_of_neg hreach, hrest]
    | some matched =>
      have hnext : ∀ other, (plan.nextOutputSubscriberId matched).2.output other =
          plan.output other := plan.output_next matched
      have hrest := ih (plan.nextOutputSubscriberId matched).2
        (fun other hother hat => by
          rw [hnext]
          exact hroute other (mem_cons_of_mem m hother) hat)
        (fun other hother => by
          rw [hnext]
          exact hothers other hother)
      have hne : m.subscriberId ≠ id := by
        intro hsame
        simp [hsame, hid] at hm
      by_cases hsame : matched = routeId
      · subst hsame
        have hout := SessionDelivery.Plan.next_of_output (hroute m mem_cons_self hm) hid
        have hreach : reaches id matched m = true := by simp [hm, reaches]
        rw [filter_cons_of_pos (by simpa using hout), filter_cons_of_pos hreach,
          hrest, hout]
        rfl
      have hout : (plan.nextOutputSubscriberId matched).1 ≠ id := by
        rcases plan.next_eq matched with hnone | hput
        · rw [hnone]
          exact Ne.symm hzero
        intro hbad
        rw [hbad] at hput
        exact hothers matched hsame hput
      have hreach : ¬ reaches id routeId m = true := by simp [hm, hne, hsame, reaches]
      rw [filter_cons_of_neg (by simpa using hout), filter_cons_of_neg hreach, hrest]

/-! ### The swaps -/

def isSessionTarget (m : Match) : Bool := (sessionRouteId m.subscriberId).isSome

lemma partitionTargets_from (owners : Table Nat SubscriberId) (before stay gone : List Match) :
    ∃ gone', partitionTargets owners before.length (before ++ stay ++ gone)
        (before.length + stay.length) = (before.foldr (swapStep isSessionTarget) stay ++ gone',
        (before.foldr (swapStep isSessionTarget) stay).length) := by
  induction before using reverseRecOn generalizing stay gone with
  | nil => exact ⟨gone, by simp [partitionTargets]⟩
  | append_singleton before m ih =>
    rw [foldr_append, foldr_cons, foldr_nil, length_append,
      length_singleton]
    have hlist : before ++ [m] ++ stay ++ gone = before ++ m :: stay ++ gone := by simp
    have hat : (before ++ m :: stay ++ gone)[before.length]? = some m := by simp
    have hstart : before.length + 1 + stay.length - 1 = before.length + stay.length := by omega
    rw [hlist]
    unfold partitionTargets
    rw [hat, hstart]
    cases htarget : sessionRouteId m.subscriberId with
    | none =>
      obtain ⟨last, hlast, -⟩ := swap_last before stay gone m m
      have hstep : swapStep isSessionTarget m stay = m :: stay := by
        simp [htarget, swapStep, isSessionTarget]
      obtain ⟨gone', hgone⟩ := ih (m :: stay) gone
      rw [hlast, hstep]
      dsimp only
      rw [htarget]
      have hplace : before.length + 1 + stay.length = before.length + (m :: stay).length := by
        rw [length_cons]
        omega
      rw [hplace]
      exact ⟨gone', hgone⟩
    | some routeId =>
      obtain ⟨last, hlast, hset⟩ := swap_last before stay gone m
        { m with subscriberId := (owners.get routeId).getD 0 }
      have hstep : swapStep isSessionTarget m stay = stay.getLast?.toList ++ stay.dropLast := by
        simp [htarget, swapStep, isSessionTarget]
      have hlen : (stay.getLast?.toList ++ stay.dropLast).length = stay.length :=
        (getLast?_append_dropLast_perm stay).length_eq
      rw [hlast, hstep]
      dsimp only
      rw [htarget]
      dsimp only
      rw [hset]
      obtain ⟨gone', hgone⟩ := ih (stay.getLast?.toList ++ stay.dropLast)
        ({ m with subscriberId := (owners.get routeId).getD 0 } :: gone)
      rw [hlen] at hgone
      exact ⟨gone', hgone⟩

/-- **What stands in front of the session targets.** -/
theorem partitionTargets_front (owners : Table Nat SubscriberId) (found : List Match) :
    (partitionTargets owners found.length found found.length).1.take
        (partitionTargets owners found.length found found.length).2 =
      swapOut isSessionTarget found := by
  obtain ⟨gone, hgone⟩ := partitionTargets_from owners found [] []
  rw [append_nil, append_nil, length_nil, Nat.add_zero] at hgone
  rw [hgone]
  exact take_left

end Fanout

end Netz.Mqtt
