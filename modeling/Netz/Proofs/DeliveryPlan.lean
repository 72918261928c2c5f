/-
What `session_delivery.Plan` computes.

For every route of the matches, the plan holds one route with the highest of the granted
qualities, the RETAIN flag if any match keeps it, and the distinct subscription identifiers in
the order of the matches.  The two passes are two folds; each keeps what it has done with the
matches behind it.
-/
import Netz.Lib.Positions
import Netz.Mqtt.SessionDelivery

namespace Netz.Mqtt

/-! ### The highest quality -/

namespace QoS

/-- The highest of some qualities. -/
def highest (qualities : List QoS) : QoS := qualities.foldl QoS.max .atMostOnce

lemma level_min_le (a b : QoS) (n : Nat) : (a.min b).level ≤ n ↔ a.level ≤ n ∨ b.level ≤ n := by
  unfold QoS.min
  split
  · omega
  · omega

lemma level_max_le (a b : QoS) (n : Nat) : (a.max b).level ≤ n ↔ a.level ≤ n ∧ b.level ≤ n := by
  unfold QoS.max
  split
  · omega
  · omega

lemma level_injective {a b : QoS} (h : a.level = b.level) : a = b := by
  cases a <;> cases b <;> first | rfl | cases h

lemma max_atMostOnce (qos : QoS) : QoS.max .atMostOnce qos = qos := by
  cases qos <;> rfl

lemma highest_append (qualities : List QoS) (qos : QoS) :
    highest (qualities ++ [qos]) = (highest qualities).max qos := by simp [highest]

/-- The highest quality is the least that no quality exceeds. -/
theorem highest_le_iff (qualities : List QoS) (n : Nat) :
    (highest qualities).level ≤ n ↔ ∀ qos ∈ qualities, qos.level ≤ n := by
  induction qualities using List.reverseRecOn with
  | nil => exact ⟨fun _ _ hmem => absurd hmem List.not_mem_nil, fun _ => Nat.zero_le n⟩
  | append_singleton rest qos ih =>
    rw [highest_append, level_max_le, ih]
    constructor
    · intro h other hother
      rcases List.mem_append.mp hother with hrest | hlast
      · exact h.1 other hrest
      · rw [List.mem_singleton.mp hlast]
        exact h.2
    intro h
    exact ⟨fun other hother => h other (List.mem_append_left _ hother),
      h qos (List.mem_append_right _ (List.mem_singleton_self qos))⟩

lemma level_le_highest {qualities : List QoS} {qos : QoS} (h : qos ∈ qualities) :
    qos.level ≤ (highest qualities).level :=
  (highest_le_iff qualities _).mp le_rfl qos h

lemma highest_mem {qualities : List QoS} (h : qualities ≠ []) :
    highest qualities ∈ qualities := by
  induction qualities using List.reverseRecOn with
  | nil => exact absurd rfl h
  | append_singleton rest qos ih =>
    rw [highest_append]
    unfold QoS.max
    by_cases hrest : rest = []
    · subst hrest
      split
      · next hle =>
          have hzero : qos.level = 0 := Nat.le_zero.mp hle
          rw [show highest [] = qos from (level_injective (by rw [hzero]; rfl))]
          exact List.mem_singleton_self qos
      · exact List.mem_singleton_self qos
    split
    · exact List.mem_append_left _ (ih hrest)
    · exact List.mem_append_right _ (List.mem_singleton_self qos)

end QoS

namespace SessionDelivery

open Lib List

lemma sessionRouteId_sessionSubscriberId (routeId : Nat) :
    sessionRouteId (sessionSubscriberId routeId) = some routeId := by
  unfold sessionRouteId sessionSubscriberId
  rw [if_neg (not_lt.mpr (Nat.le_add_right _ _)), Nat.add_sub_cancel_left]

/-- The matches of a route. -/
def ofRoute (routeId : Nat) (ms : List Match) : List Match :=
  ms.filter (fun m => sessionRouteId m.subscriberId == some routeId)

def identifiersOf (ms : List Match) : List Nat := ms.filterMap (·.subscriptionIdentifier)

/-- The identifier, unless it is there already. -/
def appendDistinct (identifiers : List Nat) (identifier : Nat) : List Nat :=
  if identifier ∈ identifiers then identifiers else identifiers ++ [identifier]

/-- The distinct identifiers, in order of first appearance. -/
def distinct (identifiers : List Nat) : List Nat := identifiers.foldl appendDistinct []

/-- What the first pass makes of the matches of one route. -/
def summary (sourceQos : QoS) (sourceRetain : Bool) (routeId : Nat) : List Match → Option Route
  | [] => none
  | m :: rest =>
    some (rest.foldl (fun route m => Plan.join sourceQos sourceRetain m route)
      (Plan.found sourceQos sourceRetain m routeId))

section

variable {ms : List Match} {m : Match} {routeId : Nat}

lemma ofRoute_append_of (h : sessionRouteId m.subscriberId = some routeId) :
    ofRoute routeId (ms ++ [m]) = ofRoute routeId ms ++ [m] := by simp [h, ofRoute]

lemma ofRoute_append_of_ne (h : sessionRouteId m.subscriberId ≠ some routeId) :
    ofRoute routeId (ms ++ [m]) = ofRoute routeId ms := by
  unfold ofRoute
  rw [filter_append, filter_cons_of_neg (by simpa using h), filter_nil,
    append_nil]

variable (sourceQos : QoS) (sourceRetain : Bool)

lemma summary_append (routeId : Nat) (ms : List Match) (m : Match) :
    summary sourceQos sourceRetain routeId (ms ++ [m]) =
      some (match summary sourceQos sourceRetain routeId ms with
        | none => Plan.found sourceQos sourceRetain m routeId
        | some route => Plan.join sourceQos sourceRetain m route) := by
  cases ms with
  | nil => rfl
  | cons first rest => simp [summary]

/-- A property that a match adds to a route, over all matches of the route. -/
theorem summary_induction {P : List Match → Route → Prop} (routeId : Nat)
    (hfirst : ∀ m, P [m] (Plan.found sourceQos sourceRetain m routeId))
    (hnext : ∀ ms m route, P ms route → P (ms ++ [m]) (Plan.join sourceQos sourceRetain m route))
    {ms : List Match} {route : Route} (h : summary sourceQos sourceRetain routeId ms = some route) :
    P ms route := by
  induction ms using reverseRecOn generalizing route with
  | nil => cases h
  | append_singleton ms m ih =>
    rw [summary_append, Option.some.injEq] at h
    rw [← h]
    cases hpre : summary sourceQos sourceRetain routeId ms with
    | none =>
      cases ms with
      | nil => exact hfirst m
      | cons first rest => cases hpre
    | some before => exact hnext ms m before (ih hpre)

end

/-! ### The first pass -/

namespace Plan

lemma routeForId_eq_some {plan : Plan} (h : Positions (fun r : Route => [r.routeId]) plan.routes
    plan.routeIndex) {routeId : Nat} {route : Route} :
    plan.routeForId routeId = some route ↔
      ∃ i : Nat, plan.routes[i]? = some route ∧ route.routeId = routeId := by
  unfold routeForId
  cases hget : plan.routeIndex.get routeId with
  | none =>
    have hall := h.get_eq_none.mp hget
    constructor
    · simp
    · rintro ⟨i, hi, hid⟩
      exact absurd (by rw [hid]; exact mem_singleton_self _) (hall route (mem_of_getElem? hi))
  | some index =>
    obtain ⟨found, hfound, hkey⟩ := (h routeId index).mp hget
    rw [mem_singleton] at hkey
    dsimp only
    constructor
    · intro hroute
      rw [hfound] at hroute
      cases hroute
      exact ⟨index, hfound, hkey.symm⟩
    rintro ⟨i, hi, hid⟩
    have hsame := h.unique hi hfound (k := routeId) (by rw [hid]; exact mem_singleton_self _)
      (by rw [← hkey]; exact mem_singleton_self _)
    rw [← hsame]
    exact hi

lemma routeForId_eq_none {plan : Plan} {routeId : Nat} (hnone : plan.routeIndex.get routeId = none) :
    plan.routeForId routeId = none := by
  unfold routeForId
  rw [hnone]

end Plan

/-- The plan after the matches of the first pass. -/
structure Collected (sourceQos : QoS) (sourceRetain : Bool) (ms : List Match) (plan : Plan) : Prop where
  positions : Positions (fun r : Route => [r.routeId]) plan.routes plan.routeIndex
  routes : ∀ routeId, plan.routeForId routeId =
    summary sourceQos sourceRetain routeId (ofRoute routeId ms)
  fresh : ∀ route ∈ plan.routes, route.identifierCount = 0 ∧ route.outputSubscriberId = 0

lemma collected_nil (sourceQos : QoS) (sourceRetain : Bool) :
    Collected sourceQos sourceRetain [] {} :=
  ⟨Positions.empty, fun _ => rfl, fun _ hroute => by cases hroute⟩

variable {plan base : Plan} {routes : List Route} {i offset count : Nat} {l : List Nat}
  {done rest : List Match}

variable {ms : List Match} {sourceRetain : Bool}

/-- **One match of the first pass.** -/
theorem Collected.step {sourceQos : QoS}
    (h : Collected sourceQos sourceRetain ms plan) (m : Match) :
    Collected sourceQos sourceRetain (ms ++ [m]) (plan.collect sourceQos sourceRetain m) := by
  unfold Plan.collect
  cases hid : sessionRouteId m.subscriberId with
  | none =>
    refine ⟨h.positions, fun routeId => ?_, h.fresh⟩
    rw [ofRoute_append_of_ne (by rw [hid]; simp)]
    exact h.routes routeId
  | some routeId =>
    dsimp only
    cases hget : plan.routeIndex.get routeId with
    | none =>
      have hnew : summary sourceQos sourceRetain routeId (ofRoute routeId ms) = none := by
        rw [← h.routes]
        exact Plan.routeForId_eq_none hget
      have hpositions := h.positions.append
        (a := Plan.found sourceQos sourceRetain m routeId) rfl hget
      refine ⟨hpositions, fun other => ?_, fun route hroute => ?_⟩
      · by_cases hother : other = routeId
        · subst hother
          rw [ofRoute_append_of hid, summary_append, hnew, Plan.routeForId_eq_some hpositions]
          exact ⟨plan.routes.length, List.getElem?_concat_length, rfl⟩
        rw [ofRoute_append_of_ne (by rw [hid]; simpa using Ne.symm hother), ← h.routes]
        unfold Plan.routeForId
        rw [Table.get_put hget, if_neg hother]
        cases hidx : plan.routeIndex.get other with
        | none => rfl
        | some index =>
          obtain ⟨found, hfound, -⟩ := (h.positions other index).mp hidx
          simp [List.getElem?_append_left (lt_of_getElem? hfound)]
      rcases List.mem_append.mp hroute with hold | hlast
      · exact h.fresh route hold
      · rw [List.mem_singleton.mp hlast]
        exact ⟨rfl, rfl⟩
    | some index =>
      obtain ⟨route, hroute, hkey⟩ := (h.positions routeId index).mp hget
      rw [List.mem_singleton] at hkey
      have hlt := lt_of_getElem? hroute
      have hold : summary sourceQos sourceRetain routeId (ofRoute routeId ms) = some route := by
        rw [← h.routes, Plan.routeForId_eq_some h.positions]
        exact ⟨index, hroute, hkey.symm⟩
      dsimp only
      have hset : plan.routes.modify index (Plan.join sourceQos sourceRetain m) =
          plan.routes.set index (Plan.join sourceQos sourceRetain m route) := by
        rw [List.modify_eq_set_getElem? , hroute]
        rfl
      rw [hset]
      have hkeys : [(Plan.join sourceQos sourceRetain m route).routeId] = [route.routeId] := rfl
      have hpositions := h.positions.replace hroute hkeys
      refine ⟨hpositions, fun other => ?_, fun found hfound => ?_⟩
      · by_cases hother : other = routeId
        · subst hother
          rw [ofRoute_append_of hid, summary_append, hold, Plan.routeForId_eq_some hpositions]
          exact ⟨index, List.getElem?_set_self hlt, hkey.symm⟩
        rw [ofRoute_append_of_ne (by rw [hid]; simpa using Ne.symm hother), ← h.routes]
        unfold Plan.routeForId
        cases hidx : plan.routeIndex.get other with
        | none => rfl
        | some place =>
          obtain ⟨found, hfound, hfoundKey⟩ := (h.positions other place).mp hidx
          rw [List.mem_singleton] at hfoundKey
          have hne : index ≠ place := by
            rintro rfl
            rw [hroute] at hfound
            cases hfound
            exact hother (hfoundKey.trans hkey.symm)
          dsimp only
          rw [List.getElem?_set_ne hne]
      rcases List.mem_or_eq_of_mem_set hfound with hmem | hlast
      · exact h.fresh found hmem
      · rw [hlast]
        exact h.fresh route (List.mem_of_getElem? hroute)

lemma collected_all (sourceQos : QoS) (sourceRetain : Bool) (ms : List Match) :
    Collected sourceQos sourceRetain ms (ms.foldl (Plan.collect sourceQos sourceRetain) {}) := by
  induction ms using reverseRecOn with
  | nil => exact collected_nil sourceQos sourceRetain
  | append_singleton ms m ih =>
    rw [foldl_append]
    exact ih.step m

/-! ### Segments

The segment of a route starts where the capacities of the routes before it end.
-/

variable {route : Route}

lemma getElem?_assignOffsets (next : Nat) (h : routes[i]? = some route) :
    (Plan.assignOffsets next routes)[i]? = some { route with
      identifierOffset := next + ((routes.take i).map (·.identifierCapacity)).sum } := by
  induction routes generalizing next i with
  | nil => cases h
  | cons first rest ih =>
    unfold Plan.assignOffsets
    cases i with
    | zero =>
      rw [getElem?_cons_zero, Option.some.injEq] at h
      rw [h]
      rfl
    | succ i =>
      rw [getElem?_cons_succ] at h ⊢
      rw [ih _ h, take_succ_cons, map_cons, sum_cons, Nat.add_assoc]

lemma length_assignOffsets (routes : List Route) (next : Nat) :
    (Plan.assignOffsets next routes).length = routes.length := by
  induction routes generalizing next with
  | nil => rfl
  | cons first rest ih => simp [ih, Plan.assignOffsets]

lemma sum_capacity_step {j : Nat} (h : routes[i]? = some route) (hij : i < j) :
    ((routes.take i).map (·.identifierCapacity)).sum + route.identifierCapacity ≤
      ((routes.take j).map (·.identifierCapacity)).sum := by
  have hprefix : routes.take i ++ [route] = routes.take (i + 1) := by
    rw [take_add_one, h]
    rfl
  have hsplit : routes.take j = routes.take i ++ route :: ((routes.take j).drop (i + 1)) := by
    conv_lhs => rw [← take_append_drop (i + 1) (routes.take j)]
    rw [take_take, Nat.min_eq_left hij, ← hprefix, append_assoc]
    rfl
  rw [hsplit, map_append, sum_append, map_cons, sum_cons]
  omega

lemma segment_set {v : Nat} (h : i < offset ∨ offset + count ≤ i) :
    ((l.set i v).drop offset).take count = (l.drop offset).take count := by
  apply ext_getElem?
  intro k
  rw [getElem?_take, getElem?_take, getElem?_drop, getElem?_drop]
  by_cases hk : k < count
  · rw [if_pos hk, if_pos hk, getElem?_set_ne (by omega)]
  · rw [if_neg hk, if_neg hk]

lemma segment_push {v : Nat} (h : offset + count < l.length) :
    ((l.set (offset + count) v).drop offset).take (count + 1) =
      (l.drop offset).take count ++ [v] := by
  rw [take_add_one, segment_set (.inr le_rfl), getElem?_drop,
    getElem?_set_self h]
  rfl

/-! ### The second pass -/

lemma distinct_append (identifiers : List Nat) (identifier : Nat) :
    distinct (identifiers ++ [identifier]) = appendDistinct (distinct identifiers) identifier := by
  simp [distinct]

lemma length_distinct_le (identifiers : List Nat) :
    (distinct identifiers).length ≤ identifiers.length := by
  induction identifiers using reverseRecOn with
  | nil => exact le_rfl
  | append_singleton identifiers identifier ih =>
    rw [distinct_append, length_append]
    unfold appendDistinct
    by_cases h : identifier ∈ distinct identifiers
    · rw [if_pos h]
      omega
    · rw [if_neg h]
      simpa using ih

lemma identifiersOf_append (ms : List Match) (m : Match) :
    identifiersOf (ms ++ [m]) = identifiersOf ms ++ m.subscriptionIdentifier.toList := by
  unfold identifiersOf
  cases h : m.subscriptionIdentifier with
  | none | some => simp [h]

lemma summary_capacity {sourceQos : QoS} {routeId : Nat}
    (h : summary sourceQos sourceRetain routeId ms = some route) :
    route.identifierCapacity = (identifiersOf ms).length := by
  refine summary_induction sourceQos sourceRetain
    (P := fun ms route => route.identifierCapacity = (identifiersOf ms).length) routeId
    (fun m => ?_) (fun ms m route ih => ?_) h
  · unfold Plan.found identifiersOf
    cases hid : m.subscriptionIdentifier with
    | none | some => simp [hid]
  rw [identifiersOf_append, length_append, ← ih]
  unfold Plan.join
  cases hid : m.subscriptionIdentifier with
  | none | some => rfl

/-- A route that has the identifiers of the matches `done`. -/
def counted (done : List Match) (route : Route) : Route :=
  { route with
    identifierCount := (distinct (identifiersOf (ofRoute route.routeId done))).length }

/-- The plan after the matches `done` of the second pass over `base`. -/
structure Compacted (base : Plan) (done : List Match) (plan : Plan) : Prop where
  index : plan.routeIndex = base.routeIndex
  size : plan.identifiers.length = base.identifiers.length
  routes : plan.routes = base.routes.map (counted done)
  segments : ∀ (i : Nat) (route : Route), plan.routes[i]? = some route →
    plan.identifiersFor route = distinct (identifiersOf (ofRoute route.routeId done))

/-- The plan that the second pass starts from, for the matches `ms`. -/
structure Reserved (base : Plan) (ms : List Match) : Prop where
  positions : Positions (fun r : Route => [r.routeId]) base.routes base.routeIndex
  fresh : ∀ route ∈ base.routes, route.identifierCount = 0 ∧ route.outputSubscriberId = 0
  capacity : ∀ route ∈ base.routes,
    route.identifierCapacity = (identifiersOf (ofRoute route.routeId ms)).length
  within : ∀ route ∈ base.routes,
    route.identifierOffset + route.identifierCapacity ≤ base.identifiers.length
  disjoint : ∀ (i j : Nat) (r r' : Route), base.routes[i]? = some r → base.routes[j]? = some r' →
    i < j → r.identifierOffset + r.identifierCapacity ≤ r'.identifierOffset

/-- The matches behind a prefix need their part of the segment too. -/
theorem Reserved.length_le (h : Reserved base ms) (hms : ms = done ++ rest)
    (hroute : route ∈ base.routes) :
    (identifiersOf (ofRoute route.routeId done)).length ≤ route.identifierCapacity := by
  have hsplit : identifiersOf (ofRoute route.routeId ms) =
      identifiersOf (ofRoute route.routeId done) ++ identifiersOf (ofRoute route.routeId rest) := by
    simp [hms, identifiersOf, ofRoute]
  rw [h.capacity route hroute, hsplit, length_append]
  omega

lemma compacted_nil (h : Reserved base ms) : Compacted base [] base := by
  refine ⟨rfl, rfl, ?_, fun i route hroute => ?_⟩
  · have hsame : ∀ route ∈ base.routes, counted [] route = route := by
      intro route hroute
      unfold counted
      have hzero : (distinct (identifiersOf (ofRoute route.routeId []))).length =
          route.identifierCount := (h.fresh route hroute).1.symm
      rw [hzero]
    rw [map_congr_left hsame, map_id']
  unfold Plan.identifiersFor
  rw [(h.fresh route (mem_of_getElem? hroute)).1]
  rfl

lemma Compacted.idle {m : Match} (h : Compacted base done plan)
    (hsame : ∀ route ∈ base.routes, distinct (identifiersOf (ofRoute route.routeId (done ++ [m]))) =
      distinct (identifiersOf (ofRoute route.routeId done))) :
    Compacted base (done ++ [m]) plan := by
  refine ⟨h.index, h.size, ?_, fun i route hroute => ?_⟩
  · rw [h.routes]
    apply map_congr_left
    intro route hroute
    unfold counted
    rw [hsame route hroute]
  have hfrom := mem_of_getElem? hroute
  rw [h.routes] at hfrom
  obtain ⟨before, hpre, hcounted⟩ := mem_map.mp hfrom
  rw [h.segments i route hroute, ← hcounted]
  exact (hsame before hpre).symm

lemma identifiersOf_ofRoute_append (routeId : Nat) (done : List Match) (m : Match) :
    identifiersOf (ofRoute routeId (done ++ [m])) = identifiersOf (ofRoute routeId done) ++
      if sessionRouteId m.subscriberId = some routeId then m.subscriptionIdentifier.toList
      else [] := by
  by_cases h : sessionRouteId m.subscriberId = some routeId
  · rw [ofRoute_append_of h, identifiersOf_append, if_pos h]
  · rw [ofRoute_append_of_ne h, if_neg h, append_nil]

lemma Compacted.push {base plan : Plan} {ms done rest : List Match} {m : Match}
    {routeId identifier index : Nat} {before : Route} (h : Compacted base done plan)
    (hbase : Reserved base ms) (hms : ms = done ++ m :: rest)
    (hpre : base.routes[index]? = some before) (hkey : routeId = before.routeId)
    (hnew : identifier ∉ plan.identifiersFor (counted done before))
    (hadds : identifiersOf (ofRoute routeId (done ++ [m])) =
      identifiersOf (ofRoute routeId done) ++ [identifier])
    (hothers : ∀ other, other ≠ routeId → identifiersOf (ofRoute other (done ++ [m])) =
      identifiersOf (ofRoute other done)) :
    Compacted base (done ++ [m])
      { plan with
        identifiers := plan.identifiers.set
          (before.identifierOffset + (counted done before).identifierCount) identifier
        routes := plan.routes.set index { counted done before with
          identifierCount := (counted done before).identifierCount + 1 } } := by
  have hroute : plan.routes[index]? = some (counted done before) := by
    rw [h.routes, getElem?_map, hpre]
    rfl
  have hsegment : plan.identifiersFor (counted done before) =
      distinct (identifiersOf (ofRoute routeId done)) := by
    rw [hkey]
    exact h.segments index _ hroute
  have hnow : distinct (identifiersOf (ofRoute routeId (done ++ [m]))) =
      distinct (identifiersOf (ofRoute routeId done)) ++ [identifier] := by
    rw [hsegment] at hnew
    simp [hadds, distinct_append, hnew, appendDistinct]
  have hcount : (counted done before).identifierCount =
      (distinct (identifiersOf (ofRoute routeId done))).length := by
    rw [hkey]
    rfl
  have hmore : { counted done before with
      identifierCount := (counted done before).identifierCount + 1 } =
        counted (done ++ [m]) before := by simp [← hkey, hnow, counted]
  have hroom : (counted done before).identifierCount < before.identifierCapacity := by
    have hall := hbase.length_le (hms.trans (append_cons _ _ _))
      (mem_of_getElem? hpre)
    have hle := length_distinct_le (identifiersOf (ofRoute routeId done))
    rw [← hkey, hadds, length_append, length_singleton] at hall
    omega
  have hwithin := hbase.within before (mem_of_getElem? hpre)
  rw [hmore]
  refine ⟨h.index, ?_, ?_, fun i route hi => ?_⟩
  · simp [← h.size]
  · apply ext_getElem?
    intro i
    rw [getElem?_map]
    by_cases hi : index = i
    · subst hi
      rw [List.getElem?_set_self (lt_of_getElem? hroute), hpre]
      rfl
    rw [getElem?_set_ne hi, h.routes, getElem?_map]
    cases hother : base.routes[i]? with
    | none => rfl
    | some other =>
      have hne : other.routeId ≠ routeId := by
        intro hsame
        exact hi (hbase.positions.unique hpre hother (mem_singleton_self _)
          (by rw [hsame, hkey]; exact mem_singleton_self _))
      simp [hothers other.routeId hne, counted]
  unfold Plan.identifiersFor
  by_cases hidx : index = i
  · subst hidx
    rw [List.getElem?_set_self (lt_of_getElem? hroute), Option.some.injEq] at hi
    rw [← hi, ← hmore]
    have hlt : before.identifierOffset + (counted done before).identifierCount <
        plan.identifiers.length := by
      rw [h.size]
      omega
    have hold : (plan.identifiers.drop before.identifierOffset).take
        (counted done before).identifierCount =
          distinct (identifiersOf (ofRoute routeId done)) := hsegment
    have hid : (counted done before).routeId = routeId := hkey.symm
    rw [hid, hnow]
    exact (segment_push hlt).trans (by rw [hold])
  rw [getElem?_set_ne hidx] at hi
  have hfrom := hi
  rw [h.routes, getElem?_map] at hfrom
  obtain ⟨other, hother, hcounted⟩ := Option.map_eq_some_iff.mp hfrom
  have hne : other.routeId ≠ routeId := by
    intro hsame
    exact hidx (hbase.positions.unique hpre hother (mem_singleton_self _)
      (by rw [hsame, hkey]; exact mem_singleton_self _))
  have hold := h.segments i route hi
  have hsame : route.routeId = other.routeId := by rw [← hcounted]; rfl
  rw [hsame, hothers other.routeId hne, ← hsame, ← hold]
  have hle : route.identifierCount ≤ other.identifierCapacity := by
    rw [← hcounted]
    have hall := hbase.length_le hms (mem_of_getElem? hother)
    have hlen := length_distinct_le (identifiersOf (ofRoute other.routeId done))
    unfold counted
    dsimp only
    omega
  have hoffset : route.identifierOffset = other.identifierOffset := by rw [← hcounted]; rfl
  refine segment_set ?_
  rcases Nat.lt_or_gt_of_ne hidx with hlt | hgt
  · have hsep := hbase.disjoint index i before other hpre hother hlt
    omega
  · have hsep := hbase.disjoint i index other before hother hpre hgt
    omega

/-- **One match of the second pass.**  A new identifier of a route fits in its segment, since
the segment has room for those of all its matches. -/
theorem Compacted.step {m : Match} (hbase : Reserved base ms)
    (h : Compacted base done plan) (hms : ms = done ++ m :: rest) :
    Compacted base (done ++ [m]) (plan.compact m) := by
  unfold Plan.compact
  cases hidentifier : m.subscriptionIdentifier with
  | none =>
    refine h.idle fun route hroute => ?_
    rw [identifiersOf_ofRoute_append, hidentifier]
    simp
  | some identifier =>
    cases hid : sessionRouteId m.subscriberId with
    | none =>
      refine h.idle fun route hroute => ?_
      rw [identifiersOf_ofRoute_append, if_neg (by rw [hid]; simp), append_nil]
    | some routeId =>
      dsimp only
      cases hget : plan.routeIndex.get routeId with
      | none =>
        refine h.idle fun route hroute => ?_
        rw [h.index] at hget
        have hne := hbase.positions.get_eq_none.mp hget route hroute
        rw [identifiersOf_ofRoute_append, if_neg (by rw [hid]; simpa using hne), append_nil]
      | some index =>
        rw [h.index] at hget
        obtain ⟨before, hpre, hkey⟩ := (hbase.positions routeId index).mp hget
        rw [mem_singleton] at hkey
        have hroute : plan.routes[index]? = some (counted done before) := by simp [h.routes, hpre]
        have hsegment := h.segments index _ hroute
        have hadds : identifiersOf (ofRoute routeId (done ++ [m])) =
            identifiersOf (ofRoute routeId done) ++ [identifier] := by
          simp [identifiersOf_ofRoute_append, hid, hidentifier]
        have hothers : ∀ other, other ≠ routeId → identifiersOf (ofRoute other (done ++ [m])) =
              identifiersOf (ofRoute other done) := by
          intro other hother
          rw [identifiersOf_ofRoute_append,
            if_neg (by rw [hid]; simpa using Ne.symm hother), append_nil]
        dsimp only
        rw [hroute]
        dsimp only
        by_cases hold : identifier ∈ plan.identifiersFor (counted done before)
        · rw [if_pos hold]
          refine h.idle fun route hmem => ?_
          by_cases hother : route.routeId = routeId
          · rw [hsegment] at hold
            have hsameId : (counted done before).routeId = routeId := hkey.symm
            rw [hsameId] at hold
            rw [hother, hadds, distinct_append]
            unfold appendDistinct
            rw [if_pos hold]
          · rw [hothers route.routeId hother]
        · rw [if_neg hold]
          exact h.push hbase hms hpre hkey hold hadds hothers

lemma compacted_all (hbase : Reserved base ms) :
    ∀ done rest, ms = done ++ rest → Compacted base done (done.foldl Plan.compact base) := by
  intro done
  induction done using reverseRecOn with
  | nil =>
    intro rest hms
    exact compacted_nil hbase
  | append_singleton done m ih =>
    intro rest hms
    rw [append_assoc] at hms
    rw [foldl_append]
    exact (ih (m :: rest) hms).step hbase hms

/-! ### The whole plan -/

lemma map_routeId_assignOffsets (routes : List Route) (next : Nat) :
    (Plan.assignOffsets next routes).map (·.routeId) = routes.map (·.routeId) := by
  induction routes generalizing next with
  | nil => rfl
  | cons first rest ih => simp [ih, Plan.assignOffsets]

/-- A route with its segment, and the route it was. -/
theorem getElem?_reserve (h : plan.reserve.routes[i]? = some route) :
    ∃ before, plan.routes[i]? = some before ∧ route = { before with
      identifierOffset := ((plan.routes.take i).map (·.identifierCapacity)).sum } := by
  have hlt : i < plan.routes.length := by
    rw [← length_assignOffsets plan.routes 0]
    exact lt_of_getElem? h
  refine ⟨plan.routes[i], getElem?_eq_getElem hlt, ?_⟩
  have hassigned := getElem?_assignOffsets 0 (getElem?_eq_getElem hlt)
  rw [Nat.zero_add] at hassigned
  exact Option.some.inj (h.symm.trans hassigned)

lemma Collected.reserved {sourceQos : QoS}
    (h : Collected sourceQos sourceRetain ms plan) : Reserved plan.reserve ms := by
  refine ⟨h.positions.congr ?_, fun route hroute => ?_, fun route hroute => ?_,
    fun route hroute => ?_, fun i j r r' hi hj hij => ?_⟩
  · have hids := congrArg (map fun id => [id]) (map_routeId_assignOffsets plan.routes 0)
    rw [map_map, map_map] at hids
    exact hids
  · obtain ⟨i, hi⟩ := getElem?_of_mem hroute
    obtain ⟨before, hpre, hsame⟩ := getElem?_reserve hi
    rw [hsame]
    exact h.fresh before (mem_of_getElem? hpre)
  · obtain ⟨i, hi⟩ := getElem?_of_mem hroute
    obtain ⟨before, hpre, hsame⟩ := getElem?_reserve hi
    have haggregate : summary sourceQos sourceRetain before.routeId
        (ofRoute before.routeId ms) = some before := by
      rw [← h.routes, Plan.routeForId_eq_some h.positions]
      exact ⟨i, hpre, rfl⟩
    have hcap := summary_capacity haggregate
    rw [hsame]
    exact hcap
  · obtain ⟨i, hi⟩ := getElem?_of_mem hroute
    obtain ⟨before, hpre, hsame⟩ := getElem?_reserve hi
    have hsum := sum_capacity_step hpre (lt_of_getElem? hpre)
    rw [take_length] at hsum
    rw [hsame]
    unfold Plan.reserve
    rw [length_replicate]
    exact hsum
  obtain ⟨before, hpre, hsame⟩ := getElem?_reserve hi
  obtain ⟨later, hlater, hsame'⟩ := getElem?_reserve hj
  have hstep := sum_capacity_step hpre hij
  rw [hsame, hsame']
  exact hstep

/-- **What the plan holds for a route**: the summary of its matches, and their distinct
identifiers in the order of the matches. -/
theorem routeForId_init (sourceQos : QoS) (sourceRetain : Bool) (ms : List Match) (routeId : Nat) :
    ((Plan.init ms sourceQos sourceRetain).routeForId routeId = none ∧ ofRoute routeId ms = []) ∨
      ∃ route aggregate,
        (Plan.init ms sourceQos sourceRetain).routeForId routeId = some route ∧
          summary sourceQos sourceRetain routeId (ofRoute routeId ms) = some aggregate ∧
          route.qos = aggregate.qos ∧ route.retain = aggregate.retain ∧
          (Plan.init ms sourceQos sourceRetain).identifiersFor route =
            distinct (identifiersOf (ofRoute routeId ms)) := by
  have hcoll := collected_all sourceQos sourceRetain ms
  unfold Plan.init
  generalize hplan : ms.foldl (Plan.collect sourceQos sourceRetain) {} = plan at hcoll ⊢
  have hbase := hcoll.reserved
  have h := compacted_all hbase ms [] (append_nil ms).symm
  generalize ms.foldl Plan.compact plan.reserve = final at h ⊢
  have hread := hcoll.routes routeId
  unfold Plan.routeForId at hread ⊢
  rw [h.index, show plan.reserve.routeIndex = plan.routeIndex from rfl]
  cases hget : plan.routeIndex.get routeId with
  | none =>
    rw [hget] at hread
    refine .inl ⟨rfl, ?_⟩
    cases hof : ofRoute routeId ms with
    | nil => rfl
    | cons first rest =>
      rw [hof] at hread
      cases hread
  | some index =>
    rw [hget] at hread
    obtain ⟨aggregate, hat, hkey⟩ := (hcoll.positions routeId index).mp hget
    rw [mem_singleton] at hkey
    have hroute := getElem?_assignOffsets 0 hat
    have hfinal : final.routes[index]? = some (counted ms { aggregate with
        identifierOffset :=
          0 + ((plan.routes.take index).map (·.identifierCapacity)).sum }) := by
      rw [h.routes, getElem?_map]
      exact congrArg (Option.map (counted ms)) hroute
    refine .inr ⟨_, aggregate, hfinal, hread.symm.trans hat, rfl, rfl, ?_⟩
    rw [h.segments index _ hfinal, hkey]
    rfl

lemma init_routes (sourceQos : QoS) (sourceRetain : Bool) (ms : List Match) :
    Positions (fun r : Route => [r.routeId]) (Plan.init ms sourceQos sourceRetain).routes
        (Plan.init ms sourceQos sourceRetain).routeIndex ∧
      ∀ route ∈ (Plan.init ms sourceQos sourceRetain).routes, route.outputSubscriberId = 0 := by
  have hbase := (collected_all sourceQos sourceRetain ms).reserved
  unfold Plan.init
  generalize (ms.foldl (Plan.collect sourceQos sourceRetain) {}).reserve = base at hbase ⊢
  have h := compacted_all hbase ms [] (append_nil ms).symm
  rw [h.index, h.routes]
  refine ⟨hbase.positions.congr ?_, fun route hroute => ?_⟩
  · rw [map_map]
    rfl
  obtain ⟨before, hpre, hcounted⟩ := mem_map.mp hroute
  rw [← hcounted]
  exact (hbase.fresh before hpre).2

/-! ### The aggregate in closed form -/

section

variable {sourceQos : QoS} {sourceRetain : Bool} {routeId : Nat} {ms : List Match} {route : Route}

lemma summary_qos (h : summary sourceQos sourceRetain routeId ms = some route) :
    route.qos = QoS.highest (ms.map fun m => sourceQos.min m.subscription.qos) := by
  refine summary_induction sourceQos sourceRetain
    (P := fun ms route =>
      route.qos = QoS.highest (ms.map fun m => sourceQos.min m.subscription.qos)) routeId
    (fun m => (QoS.max_atMostOnce _).symm) (fun ms m route ih => ?_) h
  rw [map_append, map_singleton, QoS.highest_append, ← ih]
  rfl

lemma summary_retain (h : summary sourceQos sourceRetain routeId ms = some route) :
    route.retain = ms.any fun m => sourceRetain && m.subscription.retainAsPublished := by
  refine summary_induction sourceQos sourceRetain
    (P := fun ms route =>
      route.retain = ms.any fun m => sourceRetain && m.subscription.retainAsPublished) routeId
    (fun m => (Bool.or_false _).symm) (fun ms m route ih => ?_) h
  rw [any_append, any_cons, any_nil, Bool.or_false, ← ih]
  rfl

end

lemma mem_appendDistinct {identifiers : List Nat} {identifier x : Nat} :
    x ∈ appendDistinct identifiers identifier ↔ x ∈ identifiers ∨ x = identifier := by
  unfold appendDistinct
  by_cases h : identifier ∈ identifiers
  · rw [if_pos h]
    constructor
    · exact .inl
    rintro (hx | rfl)
    · exact hx
    · exact h
  · rw [if_neg h, mem_append, mem_singleton]

lemma mem_distinct {identifiers : List Nat} {x : Nat} :
    x ∈ distinct identifiers ↔ x ∈ identifiers := by
  induction identifiers using reverseRecOn with
  | nil => exact Iff.rfl
  | append_singleton identifiers identifier ih =>
    rw [distinct_append, mem_appendDistinct, ih, mem_append, mem_singleton]

lemma nodup_distinct (identifiers : List Nat) : (distinct identifiers).Nodup := by
  induction identifiers using reverseRecOn with
  | nil => exact nodup_nil
  | append_singleton identifiers identifier ih =>
    rw [distinct_append]
    unfold appendDistinct
    by_cases h : identifier ∈ distinct identifiers
    · rw [if_pos h]
      exact ih
    rw [if_neg h]
    exact nodup_append.mpr ⟨ih, nodup_singleton _, fun a ha b hb => by
      rw [mem_singleton.mp hb]
      exact fun hsame => h (hsame ▸ ha)⟩

end SessionDelivery

end Netz.Mqtt
