/-
Overlapping subscriptions of a live client and of a durable session.

Both aggregate the matches of one publication: the live queue match by match, the plan up
front.  They agree on the quality and on RETAIN as long as the matches that found no place add
nothing, and on the identifiers unless the first one comes again: the live merge compares an
identifier with the additional ones only.
-/
import Netz.Proofs.LiveDelivery

namespace Netz.Mqtt.Fanout

open Lib SessionDelivery QoS List

/-! ### The matches of a client -/

/-- A client in slot `index` whose session ends with its connection. -/
structure OnlineTransient (fanout : Fanout) (routeId index : Nat) (slot : ClientSlot)
    (id : SubscriberId) : Prop where
  known : (fanout.sessions.handleForRouteId routeId).isSome
  owner : fanout.onlineOwner routeId = some (id, slot)
  place : connectionIndex id fanout.slots.length = some index
  transient : slot.sessionPersistent = false

variable {fanout : Fanout} {routeId index : Nat} {id : SubscriberId} {slot : ClientSlot}
  {found ms : List Match} {publish : Publish}

lemma onlineOwner_eq_some (h : fanout.onlineOwner routeId = some (id, slot)) :
    ∃ index, At fanout index slot id ∧
      ∃ handle, slot.sessionHandle = some handle ∧ fanout.sessions.routeId handle = some routeId := by
  unfold onlineOwner at h
  cases howner : fanout.sessionOwners.get routeId with
  | none =>
    rw [howner] at h
    cases h
  | some ownerId =>
    rw [howner] at h
    dsimp only at h
    cases hplace : connectionIndex ownerId fanout.slots.length with
    | none => simp [hplace] at h
    | some index =>
      rw [hplace] at h
      dsimp only at h
      cases hfound : fanout.slots[index]? with
      | none => simp [hfound] at h
      | some found =>
        rw [hfound] at h
        dsimp only at h
        by_cases howns : fanout.slotOwnsSessionRoute index found ownerId routeId = true
        · rw [if_pos howns] at h
          cases h
          unfold slotOwnsSessionRoute at howns
          rw [Bool.and_eq_true, Bool.and_eq_true, Bool.and_eq_true] at howns
          obtain ⟨⟨⟨hactive, -⟩, hnamed⟩, hroute⟩ := howns
          refine ⟨index, ⟨hfound, hplace, hactive, by simpa using hnamed⟩, ?_⟩
          cases hhandle : slot.sessionHandle with
          | none => simp [hhandle] at hroute
          | some handle =>
            rw [hhandle] at hroute
            exact ⟨handle, rfl, by simpa using hroute⟩
        · simp [howns] at h

lemma OnlineTransient.at (h : OnlineTransient fanout routeId index slot id) :
    At fanout index slot id := by
  obtain ⟨other, hat, -⟩ := onlineOwner_eq_some h.owner
  have hplace := h.place
  rw [hat.place, Option.some.injEq] at hplace
  subst hplace
  exact hat

/-- The plan with the decisions about its routes. -/
def decidedPlan (fanout : Fanout) (publish : Publish) (found : List Match) : Plan :=
  let plan := Plan.init found publish.qos publish.retain
  { plan with routes := plan.routes.map fanout.decided }

/-- The matches for a client, in the order they stand in front of the session targets. -/
def arriving (fanout : Fanout) (publish : Publish) (found : List Match) (id : SubscriberId) :
    List Match :=
  (swapOut isSessionTarget (rewriteMatches (fanout.decidedPlan publish found) found)).filter
    (·.subscriberId == id)

lemma output_decidedPlan (fanout : Fanout) (publish : Publish) (found : List Match)
    {out : SubscriberId} (h : (fanout.decidedPlan publish found).output routeId = some out) :
    ∃ route, route.routeId = routeId ∧ route.outputSubscriberId = 0 ∧
      out = (fanout.decided route).outputSubscriberId := by
  obtain ⟨hpositions, hfresh⟩ := init_routes publish.qos publish.retain found
  unfold Plan.output at h
  obtain ⟨final, hfinal, hout⟩ := Option.map_eq_some_iff.mp h
  unfold decidedPlan Plan.routeForId at hfinal
  cases hget : (Plan.init found publish.qos publish.retain).routeIndex.get routeId with
  | none => simp [hget] at hfinal
  | some index =>
    rw [hget] at hfinal
    dsimp only at hfinal
    rw [getElem?_map] at hfinal
    obtain ⟨route, hroute, hdec⟩ := Option.map_eq_some_iff.mp hfinal
    obtain ⟨keyed, hkeyed, hkey⟩ := (hpositions routeId index).mp hget
    rw [hroute, Option.some.injEq] at hkeyed
    subst hkeyed
    rw [mem_singleton] at hkey
    refine ⟨route, hkey.symm, hfresh route (mem_of_getElem? hroute), ?_⟩
    rw [hdec]
    exact hout.symm

lemma OnlineTransient.output (h : OnlineTransient fanout routeId index slot id)
    (publish : Publish) {m : Match} (hm : m ∈ found)
    (hroute : sessionRouteId m.subscriberId = some routeId) :
    (fanout.decidedPlan publish found).output routeId = some id := by
  rcases routeForId_init publish.qos publish.retain found routeId with
    ⟨-, hnone⟩ | ⟨route, -, hplan, -⟩
  · have hmem : m ∈ ofRoute routeId found :=
      mem_filter.mpr ⟨hm, by rw [hroute]; exact beq_self_eq_true _⟩
    simp [hnone] at hmem
  obtain ⟨hpositions, -⟩ := init_routes publish.qos publish.retain found
  obtain ⟨place, hplace, hid⟩ := (Plan.routeForId_eq_some hpositions).mp hplan
  obtain ⟨handle, hhandle⟩ := Option.isSome_iff_exists.mp h.known
  have hdec : (fanout.decided route).outputSubscriberId = id := by
    simp [hid, hhandle, h.owner, Or.inr h.transient, decided]
  unfold Plan.routeForId at hplan
  unfold decidedPlan Plan.output Plan.routeForId
  cases hget : (Plan.init found publish.qos publish.retain).routeIndex.get routeId with
  | none => simp [hget] at hplan
  | some position =>
    rw [hget] at hplan
    simp [hplan, hdec]

lemma OnlineTransient.output_ne (h : OnlineTransient fanout routeId index slot id)
    (publish : Publish) (found : List Match) {other : Nat} (hother : other ≠ routeId) :
    (fanout.decidedPlan publish found).output other ≠ some id := by
  intro hbad
  obtain ⟨route, hrouteId, hzero, hout⟩ := output_decidedPlan fanout publish found hbad
  unfold decided at hout
  cases hhandle : fanout.sessions.handleForRouteId route.routeId with
  | none =>
    rw [hhandle] at hout
    exact h.at.id_pos (hout.trans hzero)
  | some handle =>
    rw [hhandle] at hout
    dsimp only at hout
    cases howner : fanout.onlineOwner route.routeId with
    | none =>
      rw [howner] at hout
      exact h.at.id_pos (hout.trans hzero)
    | some owner =>
      rw [howner] at hout
      dsimp only at hout
      split at hout
      · subst hout
        -- The two routes are owned by one slot, and a slot holds one session.
        obtain ⟨place, hat, handle', hheld, hrouted⟩ := onlineOwner_eq_some howner
        obtain ⟨place', hat', own, hown, howned⟩ := onlineOwner_eq_some h.owner
        have hplace := hat.place
        rw [hat'.place, Option.some.injEq] at hplace
        subst hplace
        have htarget := hat.found
        rw [hat'.found, Option.some.injEq] at htarget
        subst htarget
        rw [hown, Option.some.injEq] at hheld
        subst hheld
        rw [howned, Option.some.injEq, hrouteId] at hrouted
        exact hother hrouted.symm
      · have hid := h.at.sessionRouteId
        simp [hout, sessionRouteId_sessionSubscriberId] at hid

/-- **The matches that arrive are all those of the client**, in some order. -/
theorem arriving_perm (h : OnlineTransient fanout routeId index slot id) (publish : Publish)
    (found : List Match) :
    (fanout.arriving publish found id).Perm
      ((found.filter (reaches id routeId)).map (withSubscriber id)) := by
  have hid := h.at.sessionRouteId
  have hrewrite := rewriteMatches_filter hid h.at.id_pos found (fanout.decidedPlan publish found)
    (fun m hm hroute => h.output publish hm hroute)
    (fun other hother => h.output_ne publish found hother)
  rw [← hrewrite]
  unfold arriving
  refine ((swapOut_perm isSessionTarget _).filter _).trans ?_
  rw [filter_filter]
  refine Perm.of_eq (filter_congr fun m _ => ?_)
  by_cases hsame : m.subscriberId = id
  · simp [hsame, hid, isSessionTarget]
  · simp [hsame]

/-! ### The delivery of a fan-out -/

/-- **The one delivery of a client gathers the matches that found a place.** -/
theorem enqueueMatches_delivery {fanout' : Fanout} {nowNs : Int} {memory : FanoutMemory}
    {routes : RoutePlan} (h : OnlineTransient fanout routeId index slot id)
    (hroom : slot.queue.length + slot.routeReservations < fanout.maxQueuedDeliveries)
    (hfound : ∃ m ∈ found, reaches id routeId m = true)
    (hrun : fanout.enqueueMatches publish found nowNs memory = (.ok routes, fanout')) :
    ∃ slot' delivery, fanout'.slots[index]? = some slot' ∧ slot'.queue = slot.queue ++ [delivery] ∧
      Gathers fanout.maximumQos publish fanout.freshPublication
        ((fanout.arriving publish found id).take (fanout.room slot)) delivery := by
  unfold enqueueMatches at hrun
  obtain ⟨-, hrun⟩ := of_guard hrun nofun
  dsimp only at hrun
  obtain ⟨hstored, hdec⟩ := deliverRoutes_spec (Plan.init found publish.qos publish.retain)
    publish nowNs memory (Plan.init found publish.qos publish.retain).routes fanout
  rcases hdelivered : fanout.deliverRoutes (Plan.init found publish.qos publish.retain) publish
    nowNs memory (Plan.init found publish.qos publish.retain).routes with ⟨e | routes', stored⟩
  · simp [hdelivered] at hrun
  rw [hdelivered] at hrun hstored hdec
  dsimp only at hrun hstored hdec
  rw [hdec routes' rfl, partitionTargets_front] at hrun
  have hrest := hstored.rest
  have hat : At stored index slot id := by
    rw [hrest]
    exact ⟨h.at.found, h.at.place, h.at.active, h.at.named⟩
  have harriving : fanout.arriving publish found id ≠ [] := by
    obtain ⟨m, hm, hreach⟩ := hfound
    have hmem : withSubscriber id m ∈ (found.filter (reaches id routeId)).map (withSubscriber id) :=
      mem_map_of_mem (mem_filter.mpr ⟨hm, hreach⟩)
    intro hnil
    have hperm := arriving_perm h publish found
    simp [hnil, ← hperm.mem_iff] at hmem
  have hmax : stored.maxQueuedDeliveries = fanout.maxQueuedDeliveries := by rw [hrest]
  have hqos : stored.maximumQos = fanout.maximumQos := by rw [hrest]
  have hfresh : stored.freshPublication = fanout.freshPublication := by
    rw [hrest]
    rfl
  have hdelivery := enqueueLive_delivery hat (by rw [hmax]; exact hroom) harriving hrun
  unfold room at hdelivery ⊢
  rw [hmax, hqos, hfresh] at hdelivery
  exact hdelivery

/-! ### Live and durable -/

/-- The identifiers of the matches that found a place do not repeat the first one. -/
def FirstOnce (ms : List Match) : Prop :=
  ∀ first later, identifiersOf ms = first :: later → first ∉ later

/-- A match that found no place adds nothing to the matches `ms` that did. -/
structure Covered (maximumQos : QoS) (publish : Publish) (ms : List Match) (m : Match) : Prop where
  qos : ∃ t ∈ ms, (granted maximumQos publish m).level ≤ (granted maximumQos publish t).level
  retain : keepsRetain publish m = true → ∃ t ∈ ms, keepsRetain publish t = true
  identifier : ∀ value, m.subscriptionIdentifier = some value →
    ∃ t ∈ ms, t.subscriptionIdentifier = some value

/-- The matches as those of a durable session. -/
def asDurable (routeId : Nat) (ms : List Match) : List Match :=
  ms.map (withSubscriber (sessionSubscriberId routeId))

lemma ofRoute_asDurable (routeId : Nat) (ms : List Match) :
    ofRoute routeId (asDurable routeId ms) = asDurable routeId ms := by
  unfold ofRoute asDurable
  simp [sessionRouteId_sessionSubscriberId, withSubscriber]

lemma identifiersOf_map (id : SubscriberId) (ms : List Match) :
    identifiersOf (ms.map (withSubscriber id)) = identifiersOf ms := by
  unfold identifiersOf
  rw [filterMap_map]
  rfl

lemma mem_identifiersOf {value : Nat} :
    value ∈ identifiersOf ms ↔ ∃ m ∈ ms, m.subscriptionIdentifier = some value := by
  simp [identifiersOf]

/-- The broker's cap on the highest quality is the highest of the capped ones. -/
theorem highest_granted (maximumQos : QoS) (publish : Publish) (ms : List Match) :
    (highest (ms.map fun m => publish.qos.min m.subscription.qos)).min maximumQos =
      highest (ms.map (granted maximumQos publish)) := by
  have hbound : ∀ n, ((highest (ms.map fun m =>
      publish.qos.min m.subscription.qos)).min maximumQos).level ≤ n ↔
        (highest (ms.map (granted maximumQos publish))).level ≤ n := by
    intro n
    rw [level_min_le, highest_le_iff, highest_le_iff]
    simp only [forall_mem_map, granted, level_min_le]
    constructor
    · rintro (h | h) m hm
      · exact .inl (h m hm)
      · exact .inr h
    intro h
    by_cases hcap : maximumQos.level ≤ n
    · exact .inr hcap
    · exact .inl fun m hm => (h m hm).resolve_right hcap
  apply level_injective
  exact Nat.le_antisymm ((hbound _).mpr le_rfl) ((hbound _).mp le_rfl)

lemma highest_perm {qualities qualities' : List QoS} (h : qualities.Perm qualities') :
    highest qualities = highest qualities' := by
  apply level_injective
  apply Nat.le_antisymm
  · exact (highest_le_iff _ _).mpr fun qos hqos => level_le_highest (h.mem_iff.mp hqos)
  · exact (highest_le_iff _ _).mpr fun qos hqos => level_le_highest (h.mem_iff.mpr hqos)

/-- What the plan of a durable session says of some matches. -/
structure Durable (maximumQos : QoS) (publish : Publish) (ms : List Match) (qos : QoS)
    (retain : Bool) (identifiers : List Nat) : Prop where
  qos : qos = highest (ms.map (granted maximumQos publish))
  retain : retain = ms.any (keepsRetain publish)
  identifiers : ∀ value, value ∈ identifiers ↔ value ∈ identifiersOf ms

lemma plan_durable (maximumQos : QoS) (publish : Publish) (routeId : Nat) {ms' : List Match}
    (hms : ms ≠ []) (hperm : ms'.Perm (ms.map (withSubscriber id))) :
    ∃ route, (Plan.init (asDurable routeId ms) publish.qos publish.retain).routeForId routeId =
        some route ∧
      Durable maximumQos publish ms' (route.qos.min maximumQos) route.retain
        ((Plan.init (asDurable routeId ms) publish.qos publish.retain).identifiersFor route) := by
  rcases routeForId_init publish.qos publish.retain (asDurable routeId ms) routeId with
    ⟨-, hnone⟩ | ⟨route, aggregate, hroute, hsummary, hqos, hretain, hids⟩
  · rw [ofRoute_asDurable] at hnone
    exact absurd (map_eq_nil_iff.mp hnone) hms
  rw [ofRoute_asDurable] at hsummary hids
  refine ⟨route, hroute, ?_, ?_, fun value => ?_⟩
  · have hcapped := highest_granted maximumQos publish ms
    rw [hqos, summary_qos hsummary, highest_perm (hperm.map (granted maximumQos publish)),
      map_map]
    unfold asDurable
    rw [map_map]
    exact hcapped
  · rw [hretain, summary_retain hsummary, Bool.eq_iff_iff, any_eq_true, any_eq_true]
    unfold asDurable
    constructor
    · rintro ⟨m, hm, hkeeps⟩
      obtain ⟨raw, hraw, rfl⟩ := mem_map.mp hm
      refine ⟨withSubscriber id raw, hperm.mem_iff.mpr (mem_map_of_mem hraw), ?_⟩
      unfold keepsRetain
      rw [Bool.and_comm]
      exact hkeeps
    rintro ⟨m, hm, hkeeps⟩
    obtain ⟨raw, hraw, rfl⟩ := mem_map.mp (hperm.mem_iff.mp hm)
    refine ⟨_, mem_map_of_mem hraw, ?_⟩
    unfold keepsRetain at hkeeps
    rw [Bool.and_comm] at hkeeps
    exact hkeeps
  have hsame := (hperm.filterMap (·.subscriptionIdentifier)).mem_iff (a := value)
  rw [hids, mem_distinct]
  unfold asDurable
  rw [identifiersOf_map, ← identifiersOf_map id]
  exact hsame.symm

/-- **A delivery that gathers the first matches** says what the plan says of all of them exactly
when the first identifier does not come again and the others add nothing. -/
theorem gathers_durable_iff {maximumQos : QoS} {publication : Nat} {count : Nat}
    {delivery : Delivery} {qos : QoS} {retain : Bool} {identifiers : List Nat}
    (hcount : ms.take count ≠ [])
    (hlive : Gathers maximumQos publish publication (ms.take count) delivery)
    (hdurable : Durable maximumQos publish ms qos retain identifiers) :
    (delivery.qos = qos ∧ delivery.retain = retain ∧ delivery.identifiers.Nodup ∧
        ∀ value, value ∈ delivery.identifiers ↔ value ∈ identifiers) ↔ FirstOnce (ms.take count) ∧
        ∀ m ∈ ms.drop count, Covered maximumQos publish (ms.take count) m := by
  have hsplit := take_append_drop count ms
  generalize htaken : ms.take count = taken at *
  generalize hleft : ms.drop count = left at *
  have hmem : ∀ m, m ∈ ms ↔ m ∈ taken ∨ m ∈ left := by
    intro m
    rw [← hsplit, mem_append]
  have hqos : delivery.qos = qos ↔ ∀ m ∈ left,
      ∃ t ∈ taken, (granted maximumQos publish m).level ≤ (granted maximumQos publish t).level := by
    rw [hlive.qos, hdurable.qos]
    constructor
    · intro hsame m hm
      have hne : taken.map (granted maximumQos publish) ≠ [] := by simpa using hcount
      have hat := highest_mem hne
      obtain ⟨t, ht, hgranted⟩ := mem_map.mp hat
      refine ⟨t, ht, ?_⟩
      rw [hgranted, hsame]
      exact level_le_highest (mem_map_of_mem ((hmem m).mpr (.inr hm)))
    intro hcov
    apply level_injective
    apply Nat.le_antisymm
    · refine (highest_le_iff _ _).mpr (forall_mem_map.mpr fun m hm => ?_)
      exact level_le_highest (mem_map_of_mem ((hmem m).mpr (.inl hm)))
    refine (highest_le_iff _ _).mpr (forall_mem_map.mpr fun m hm => ?_)
    rcases (hmem m).mp hm with hin | hout
    · exact level_le_highest (mem_map_of_mem hin)
    · obtain ⟨t, ht, hle⟩ := hcov m hout
      exact hle.trans (level_le_highest (mem_map_of_mem ht))
  have hretain : delivery.retain = retain ↔ ∀ m ∈ left, keepsRetain publish m = true →
      ∃ t ∈ taken, keepsRetain publish t = true := by
    rw [hlive.retain, hdurable.retain, Bool.eq_iff_iff, any_eq_true, any_eq_true]
    constructor
    · intro hsame m hm hkeeps
      exact hsame.mpr ⟨m, (hmem m).mpr (.inr hm), hkeeps⟩
    intro hcov
    constructor
    · rintro ⟨m, hm, hkeeps⟩
      exact ⟨m, (hmem m).mpr (.inl hm), hkeeps⟩
    rintro ⟨m, hm, hkeeps⟩
    rcases (hmem m).mp hm with hin | hout
    · exact ⟨m, hin, hkeeps⟩
    · exact hcov m hout hkeeps
  have hread : ∀ value, value ∈ delivery.identifiers ↔ value ∈ identifiersOf taken := by
    intro value
    unfold Delivery.identifiers
    rw [hlive.first, hlive.additional]
    cases identifiersOf taken with
    | nil => simp [distinct]
    | cons first later =>
      rw [head?_cons, tail_cons, Option.toList_some, singleton_append,
        mem_cons, mem_cons, mem_distinct]
  have hnodup : delivery.identifiers.Nodup ↔ FirstOnce taken := by
    unfold Delivery.identifiers FirstOnce
    rw [hlive.first, hlive.additional]
    cases identifiersOf taken with
    | nil => simp [distinct]
    | cons first later =>
      rw [head?_cons, Option.toList_some, singleton_append, nodup_cons, mem_distinct]
      constructor
      · intro h first' later' hsame
        cases hsame
        exact h.1
      · intro h
        exact ⟨h first later rfl, nodup_distinct later⟩
  have hidentifiers : (∀ value, value ∈ delivery.identifiers ↔ value ∈ identifiers) ↔
      ∀ m ∈ left, ∀ value, m.subscriptionIdentifier = some value →
        ∃ t ∈ taken, t.subscriptionIdentifier = some value := by
    constructor
    · intro hsame m hm value hvalue
      rw [← mem_identifiersOf, ← hread, hsame, hdurable.identifiers, mem_identifiersOf]
      exact ⟨m, (hmem m).mpr (.inr hm), hvalue⟩
    intro hcov value
    rw [hread, hdurable.identifiers, mem_identifiersOf, mem_identifiersOf]
    constructor
    · rintro ⟨m, hm, hvalue⟩
      exact ⟨m, (hmem m).mpr (.inl hm), hvalue⟩
    rintro ⟨m, hm, hvalue⟩
    rcases (hmem m).mp hm with hin | hout
    · exact ⟨m, hin, hvalue⟩
    · exact hcov m hout value hvalue
  rw [hqos, hretain, hnodup, hidentifiers]
  constructor
  · rintro ⟨h1, h2, h3, h4⟩
    exact ⟨h3, fun m hm => ⟨h1 m hm, h2 m hm, h4 m hm⟩⟩
  rintro ⟨h3, h⟩
  exact ⟨fun m hm => (h m hm).qos, fun m hm => (h m hm).retain, h3,
    fun m hm => (h m hm).identifier⟩

/-- **Live and durable delivery agree** on a publication exactly when the matches that find a
place, in the order they arrive, do not repeat their first identifier, and cover the ones that
find none. -/
theorem live_delivery_agrees_iff {fanout fanout' : Fanout} {routeId index : Nat}
    {slot : ClientSlot} {id : SubscriberId} {publish : Publish} {found : List Match} {nowNs : Int}
    {memory : FanoutMemory} {routes : RoutePlan}
    (h : OnlineTransient fanout routeId index slot id)
    (hroom : slot.queue.length + slot.routeReservations < fanout.maxQueuedDeliveries)
    (hfound : ∃ m ∈ found, reaches id routeId m = true)
    (hrun : fanout.enqueueMatches publish found nowNs memory = (.ok routes, fanout')) :
    ∃ slot' delivery, fanout'.slots[index]? = some slot' ∧ slot'.queue = slot.queue ++ [delivery] ∧
      ∀ durableId, ∃ route,
        let plan := Plan.init (asDurable durableId (found.filter (reaches id routeId))) publish.qos
          publish.retain
        plan.routeForId durableId = some route ∧
          ((delivery.qos = route.qos.min fanout.maximumQos ∧ delivery.retain = route.retain ∧
              delivery.identifiers.Nodup ∧
              ∀ value, value ∈ delivery.identifiers ↔ value ∈ plan.identifiersFor route) ↔
            FirstOnce ((fanout.arriving publish found id).take (fanout.room slot)) ∧
              ∀ m ∈ (fanout.arriving publish found id).drop (fanout.room slot),
                Covered fanout.maximumQos publish
                  ((fanout.arriving publish found id).take (fanout.room slot)) m) := by
  obtain ⟨slot', delivery, hslot, hqueue, hgathers⟩ := enqueueMatches_delivery h hroom hfound hrun
  refine ⟨slot', delivery, hslot, hqueue, fun durableId => ?_⟩
  have hperm := arriving_perm h publish found
  have hms : found.filter (reaches id routeId) ≠ [] := by
    obtain ⟨m, hm, hreach⟩ := hfound
    exact ne_nil_of_mem (mem_filter.mpr ⟨hm, hreach⟩)
  obtain ⟨route, hroute, hdurable⟩ := plan_durable fanout.maximumQos publish durableId hms hperm
  have htake : (fanout.arriving publish found id).take (fanout.room slot) ≠ [] := by
    intro hnil
    rcases take_eq_nil_iff.mp hnil with hzero | hnone
    · unfold room at hzero
      omega
    · simp [hnone, hms] at hperm
  exact ⟨route, hroute, gathers_durable_iff htake hgathers hdurable⟩

/-! ### One client with three subscriptions -/

/-- A broker with one client, online, whose session ends with its connection. -/
def oneClient : Fanout where
  sessions := (Store.openSession { options := {} } [97] true 0 0 {}).2
  sessionOwners := [(1, connectionSubscriberId 0 1)]
  slots :=
    [{ generation := 1, active := true, connected := true, sessionHandle := some ⟨0, 1⟩ }]

/-- A match of the client's session. -/
def ofClient (filter : Bytes) (identifier : Nat) : Match where
  subscriberId := sessionSubscriberId 1
  subscription := { topicFilter := filter, qos := .atLeastOnce }
  subscriptionIdentifier := some identifier

/-- A publication on topic `a/b`. -/
def toOneClient : Publish where
  topic := [97, 47, 98]
  payload := []
  qos := .atLeastOnce
  retain := false
  properties := []

lemma oneClient_transient :
    OnlineTransient oneClient 1 0
      { generation := 1, active := true, connected := true, sessionHandle := some ⟨0, 1⟩ }
      (connectionSubscriberId 0 1) :=
  ⟨rfl, rfl, rfl, rfl⟩

/-- The filters `a/#` and `a/+`, of identifiers 3 and 9. -/
def twoMatches : List Match := [ofClient [97, 47, 35] 3, ofClient [97, 47, 43] 9]

/-- Between them the filter `a/b`, of identifier 3 again, as the router yields it. -/
def threeMatches : List Match :=
  [ofClient [97, 47, 35] 3, ofClient [97, 47, 98] 3, ofClient [97, 47, 43] 9]

theorem live_delivery_agrees_two :
    ∃ delivery : Delivery,
      ((oneClient.enqueueMatches toOneClient twoMatches 0 {}).2.slots[0]?).map (·.queue) =
          some [delivery] ∧ delivery.identifiers.Nodup := by
  rcases hrun : oneClient.enqueueMatches toOneClient twoMatches 0 {} with ⟨e | routes, fanout'⟩
  · have hok : (oneClient.enqueueMatches toOneClient twoMatches 0 {}).1.isOk = true := by
      decide +kernel
    rw [hrun] at hok
    cases hok
  obtain ⟨slot, delivery, hslot, hqueue, hagree⟩ := live_delivery_agrees_iff oneClient_transient
    (by decide) ⟨ofClient [97, 47, 35] 3, mem_cons_self, by decide +kernel⟩ hrun
  obtain ⟨route, -, hiff⟩ := hagree 1
  have htaken : identifiersOf ((oneClient.arriving toOneClient twoMatches
      (connectionSubscriberId 0 1)).take 1024) = [3, 9] := by decide +kernel
  have hleft : (oneClient.arriving toOneClient twoMatches
      (connectionSubscriberId 0 1)).drop 1024 = [] := by decide +kernel
  refine ⟨delivery, ?_, (hiff.mpr ⟨fun first later hids => ?_, fun m hm => ?_⟩).2.2.1⟩
  · rw [hslot, Option.map_some, hqueue]
    rfl
  · have hsame := htaken.symm.trans hids
    cases hsame
    decide
  · have hnone := hleft.symm ▸ hm
    cases hnone

/-- **Three overlapping subscriptions**: the live delivery carries the identifiers 3, 3 and 9,
the plan of a durable session 3 and 9. -/
theorem live_delivery_repeats_first :
    OnlineTransient oneClient 1 0
        { generation := 1, active := true, connected := true, sessionHandle := some ⟨0, 1⟩ }
        (connectionSubscriberId 0 1) ∧
      (oneClient.enqueueMatches toOneClient threeMatches 0 {}).1.isOk = true ∧
      (oneClient.enqueueMatches toOneClient threeMatches 0 {}).2.slots.map
          (fun slot => slot.queue.map (·.identifiers)) = [[[3, 3, 9]]] ∧
      ((Plan.init threeMatches .atLeastOnce false).routeForId 1).map
          (Plan.init threeMatches .atLeastOnce false).identifiersFor = some [3, 9] :=
  ⟨oneClient_transient, by decide +kernel, by decide +kernel, by decide +kernel⟩

end Netz.Mqtt.Fanout
