/-
The one delivery that a fan-out leaves in the queue of an online client.

Reservations take the first matches of the client, as many as its queue has places; merging
gathers them into one delivery.  What the delivery then says is compared with what the plan of a
durable session says for all the matches.
-/
import Netz.Proofs.Fanout

namespace Netz.Mqtt.Fanout

open Lib SessionDelivery List Option

/-- The client in slot `index`, whose connection has the subscriber identifier `id`. -/
structure At (fanout : Fanout) (index : Nat) (slot : ClientSlot) (id : SubscriberId) : Prop where
  found : fanout.slots[index]? = some slot
  place : connectionIndex id fanout.slots.length = some index
  active : slot.active = true
  named : connectionSubscriberId index slot.generation = id

namespace At

variable {fanout : Fanout} {index : Nat} {slot : ClientSlot} {id : SubscriberId}

lemma activeSlot (h : At fanout index slot id) : fanout.activeSlot id = some (index, slot) := by
  unfold Fanout.activeSlot
  rw [h.place]
  dsimp only
  rw [h.found]
  dsimp only
  rw [if_pos ⟨h.active, h.named⟩]

lemma id_pos (h : At fanout index slot id) : id ≠ 0 := by
  have hpos := slot.numbered h.active
  intro hzero
  have hsum : slot.generation * 2 ^ 32 + index = 0 := h.named.trans hzero
  omega

lemma sessionRouteId (h : At fanout index slot id) : sessionRouteId id = none := by
  have hplace := h.place
  unfold connectionIndex at hplace
  cases hid : Mqtt.sessionRouteId id with
  | none => rfl
  | some routeId => simp [hid] at hplace

lemma set_other (h : At fanout index slot id) {other : Nat} (hne : other ≠ index)
    (slot' : ClientSlot) : At { fanout with slots := fanout.slots.set other slot' } index slot id := by
  refine ⟨?_, ?_, h.active, h.named⟩
  · simp [getElem?_set_ne hne, h.found]
  dsimp only
  rw [length_set]
  exact h.place

lemma set_self (h : At fanout index slot id) (slot' : ClientSlot)
    (hactive : slot'.active = slot.active) (hgen : slot'.generation = slot.generation) :
    At { fanout with slots := fanout.slots.set index slot' } index slot' id := by
  refine ⟨List.getElem?_set_self (lt_of_getElem? h.found), ?_,
    hactive.trans h.active, ?_⟩
  · dsimp only
    rw [length_set]
    exact h.place
  · rw [hgen]
    exact h.named

end At

variable {id : SubscriberId} {slot : ClientSlot} {index : Nat}

lemma activeSlot_eq_some {fanout : Fanout}
    (h : fanout.activeSlot id = some (index, slot)) : At fanout index slot id := by
  unfold activeSlot at h
  cases hplace : connectionIndex id fanout.slots.length with
  | none =>
    rw [hplace] at h
    cases h
  | some place =>
    rw [hplace] at h
    dsimp only at h
    cases hslot : fanout.slots[place]? with
    | none => simp [hslot] at h
    | some found =>
      rw [hslot] at h
      dsimp only at h
      by_cases hactive : found.active = true ∧ connectionSubscriberId place found.generation = id
      · rw [if_pos hactive] at h
        cases h
        exact ⟨hslot, hplace, hactive.1, hactive.2⟩
      · simp [hactive] at h

/-! ### Reservations -/

/-- The places that are free in a slot's queue. -/
def room (fanout : Fanout) (slot : ClientSlot) : Nat :=
  fanout.maxQueuedDeliveries - (slot.queue.length + slot.routeReservations)

/-- What the reservations leave of a client's matches, and of its slot. -/
structure Reserved (fanout : Fanout) (index : Nat) (slot : ClientSlot) (id : SubscriberId)
    (live : List Match) (r : List Match × Fanout) : Prop where
  taken : r.1.filter (·.subscriberId == id) =
    (live.filter (·.subscriberId == id)).take (fanout.room slot)
  client : At r.2 index
    { slot with routeReservations :=
      slot.routeReservations + (r.1.filter (·.subscriberId == id)).length } id
  maximumQos : r.2.maximumQos = fanout.maximumQos
  length : r.2.slots.length = fanout.slots.length
  own : ∀ m ∈ r.1, connectionIndex m.subscriberId r.2.slots.length = some index →
    m.subscriberId = id

/-- **The first matches of a client find a place**, as many as there are places. -/
theorem reservePlaces_spec (live : List Match)
    (fanout : Fanout) (slot : ClientSlot) (hat : At fanout index slot id) :
    Reserved fanout index slot id live (reservePlaces fanout live) := by
  induction live generalizing fanout slot with
  | nil => exact ⟨take_nil.symm, hat, rfl, rfl, fun m hm => by cases hm⟩
  | cons m rest ih =>
    have hskip (hne : m.subscriberId ≠ id ∨ fanout.room slot = 0) :
        Reserved fanout index slot id (m :: rest) (reservePlaces fanout rest) := by
      have h := ih fanout slot hat
      refine ⟨?_, h.client, h.maximumQos, h.length, h.own⟩
      rw [h.taken]
      rcases hne with hne | hfull
      · rw [filter_cons_of_neg (by simpa using hne)]
      · rw [hfull, take_zero, take_zero]
    unfold reservePlaces
    by_cases hzero : m.subscriberId = 0
    · rw [if_pos hzero]
      exact hskip (.inl (by rw [hzero]; exact hat.id_pos.symm))
    rw [if_neg hzero]
    cases hactive : fanout.activeSlot m.subscriberId with
    | none =>
      refine hskip (.inl fun hsame => ?_)
      simp [hsame, hat.activeSlot] at hactive
    | some found =>
      obtain ⟨other, target⟩ := found
      have htarget := activeSlot_eq_some hactive
      dsimp only
      by_cases hfull : fanout.maxQueuedDeliveries ≤ target.queue.length + target.routeReservations
      · rw [if_pos hfull]
        apply hskip
        by_cases hsame : m.subscriberId = id
        · rw [hsame, hat.activeSlot] at hactive
          cases hactive
          right
          unfold room
          omega
        · exact .inl hsame
      rw [if_neg hfull]
      by_cases hsame : m.subscriberId = id
      · rw [hsame, hat.activeSlot] at hactive
        cases hactive
        have hnext := hat.set_self { slot with
          routeReservations := slot.routeReservations + 1 } rfl rfl
        have h := ih _ _ hnext
        generalize reservePlaces _ rest = r at h ⊢
        have hroom : fanout.room slot = (Fanout.room { fanout with
            slots := fanout.slots.set index { slot with
              routeReservations := slot.routeReservations + 1 } }
            { slot with routeReservations := slot.routeReservations + 1 }) + 1 := by
          unfold room
          dsimp only
          omega
        have hlen := h.length.trans length_set
        refine ⟨?_, ?_, h.maximumQos, hlen, ?_⟩
        · rw [filter_cons_of_pos (by simpa using hsame),
            filter_cons_of_pos (by simpa using hsame), h.taken, hroom, take_succ_cons]
        · have hclient := h.client
          rw [filter_cons_of_pos (by simpa using hsame)]
          have hsum : slot.routeReservations + ((r.1.filter (·.subscriberId == id)).length + 1) =
                slot.routeReservations + 1 + (r.1.filter (·.subscriberId == id)).length := by omega
          simp [hsum, hclient]
        intro m' hm' hplace
        rcases mem_cons.mp hm' with rfl | hlater
        · exact hsame
        · exact h.own m' hlater hplace
      have hne : other ≠ index := by
        intro hbad
        subst hbad
        have hslot := hat.found
        rw [htarget.found, some.injEq] at hslot
        rw [hslot] at htarget
        exact hsame (htarget.named.symm.trans hat.named)
      have hnext := hat.set_other hne { target with
        routeReservations := target.routeReservations + 1 }
      have h := ih _ _ hnext
      generalize reservePlaces _ rest = r at h ⊢
      have hlen := h.length.trans length_set
      refine ⟨?_, ?_, h.maximumQos, hlen, ?_⟩
      · rw [filter_cons_of_neg (by simpa using hsame),
          filter_cons_of_neg (by simpa using hsame)]
        exact h.taken
      · rw [filter_cons_of_neg (by simpa using hsame)]
        exact h.client
      intro m' hm' hplace
      rcases mem_cons.mp hm' with rfl | hlater
      · rw [hlen, htarget.place, some.injEq] at hplace
        exact absurd hplace hne
      · exact h.own m' hlater hplace

/-! ### Merging -/

/-- The quality that a match grants the publication on this listener. -/
def granted (maximumQos : QoS) (publish : Publish) (m : Match) : QoS :=
  (publish.qos.min m.subscription.qos).min maximumQos

def keepsRetain (publish : Publish) (m : Match) : Bool :=
  m.subscription.retainAsPublished && publish.retain

/-- The delivery of `publication` gathers the matches `ms`: only later identifiers are compared
with each other. -/
structure Gathers (maximumQos : QoS) (publish : Publish) (publication : Nat) (ms : List Match)
    (delivery : Delivery) : Prop where
  publication : delivery.publication = publication
  qos : delivery.qos = QoS.highest (ms.map (granted maximumQos publish))
  retain : delivery.retain = ms.any (keepsRetain publish)
  first : delivery.subscriptionIdentifier = (identifiersOf ms).head?
  additional : delivery.additionalSubscriptionIdentifiers = distinct (identifiersOf ms).tail

variable {maximumQos : QoS} {publish : Publish} {publication : Nat} {ms : List Match} {m : Match}
  {delivery : Delivery} {memory : Bool} {old queue : List Delivery}

lemma appendSubscriptionIdentifier_gathers {appended : Delivery}
    (h : Gathers maximumQos publish publication ms delivery)
    (happend : delivery.appendSubscriptionIdentifier m.subscriptionIdentifier memory = .ok appended) :
    appended.publication = publication ∧ appended.qos = delivery.qos ∧
      appended.retain = delivery.retain ∧
      appended.subscriptionIdentifier = (identifiersOf (ms ++ [m])).head? ∧
      appended.additionalSubscriptionIdentifiers = distinct (identifiersOf (ms ++ [m])).tail := by
  rw [identifiersOf_append]
  unfold Delivery.appendSubscriptionIdentifier at happend
  cases hid : m.subscriptionIdentifier with
  | none =>
    rw [hid] at happend
    cases happend
    rw [toList_none, append_nil]
    exact ⟨h.publication, rfl, rfl, h.first, h.additional⟩
  | some value =>
    rw [hid] at happend
    dsimp only at happend
    have hfirst := h.first
    have hadd := h.additional
    rw [toList_some]
    cases hids : identifiersOf ms with
    | nil =>
      rw [hids] at hfirst hadd
      have hnone : delivery.subscriptionIdentifier = none := hfirst
      rw [if_pos hnone] at happend
      cases happend
      exact ⟨h.publication, rfl, rfl, rfl, hadd⟩
    | cons first later =>
      rw [hids] at hfirst hadd
      rw [if_neg (by rw [hfirst]; simp)] at happend
      rw [cons_append, tail_cons, distinct_append]
      rw [tail_cons] at hadd
      unfold appendDistinct
      rw [← hadd]
      by_cases hmem : value ∈ delivery.additionalSubscriptionIdentifiers
      · rw [if_pos hmem] at happend ⊢
        cases happend
        exact ⟨h.publication, rfl, rfl, hfirst, rfl⟩
      rw [if_neg hmem] at happend ⊢
      obtain ⟨-, happend⟩ := of_guard happend nofun
      cases happend
      exact ⟨h.publication, rfl, rfl, hfirst, rfl⟩

lemma mergeMatch_first (hold : ∀ d ∈ old, d.publication ≠ publication)
    (hmerge : mergeMatch maximumQos publish publication memory m old = .ok queue) :
    ∃ d, queue = old ++ [d] ∧ Gathers maximumQos publish publication [m] d := by
  induction old generalizing queue with
  | nil =>
    unfold mergeMatch at hmerge
    cases hmerge
    refine ⟨_, rfl, rfl, (QoS.max_atMostOnce _).symm, (Bool.or_false _).symm, ?_, ?_⟩
    · simp [identifiersOf]
    unfold identifiersOf
    cases hid : m.subscriptionIdentifier with
    | none | some => simp [hid, distinct]
  | cons delivery rest ih =>
    unfold mergeMatch at hmerge
    dsimp only at hmerge
    rw [if_neg (hold delivery mem_cons_self)] at hmerge
    obtain ⟨later, hlater, hqueue⟩ := ok_of_map_eq_ok hmerge
    obtain ⟨d, hd, hgathers⟩ := ih (fun d hd => hold d (mem_cons_of_mem delivery hd)) hlater
    exact ⟨d, by rw [← hqueue, hd, cons_append], hgathers⟩

lemma mergeMatch_next (hold : ∀ d ∈ old, d.publication ≠ publication)
    (hdelivery : Gathers maximumQos publish publication ms delivery)
    (hmerge : mergeMatch maximumQos publish publication memory m (old ++ [delivery]) = .ok queue) :
    ∃ d, queue = old ++ [d] ∧ Gathers maximumQos publish publication (ms ++ [m]) d := by
  induction old generalizing queue with
  | nil =>
    rw [nil_append] at hmerge
    unfold mergeMatch at hmerge
    dsimp only at hmerge
    rw [if_pos hdelivery.publication] at hmerge
    obtain ⟨appended, happend, hqueue⟩ := ok_of_map_eq_ok hmerge
    obtain ⟨hpublication, hqos, hretain, hfirst, hadd⟩ :=
      appendSubscriptionIdentifier_gathers hdelivery happend
    refine ⟨_, hqueue.symm, hpublication, ?_, ?_, hfirst, hadd⟩
    · dsimp only
      rw [hqos, hdelivery.qos, map_append, map_singleton, QoS.highest_append]
      rfl
    dsimp only
    rw [hretain, hdelivery.retain, any_append, any_cons, any_nil, Bool.or_false]
    rfl
  | cons first rest ih =>
    rw [cons_append] at hmerge
    unfold mergeMatch at hmerge
    dsimp only at hmerge
    rw [if_neg (hold first mem_cons_self)] at hmerge
    obtain ⟨later, hlater, hqueue⟩ := ok_of_map_eq_ok hmerge
    obtain ⟨d, hd, hgathers⟩ := ih (fun d hd => hold d (mem_cons_of_mem first hd)) hlater
    exact ⟨d, by rw [← hqueue, hd, cons_append], hgathers⟩

/-- The queue of a client after the matches `ms` of its own. -/
def Merged (maximumQos : QoS) (publish : Publish) (publication : Nat) (old : List Delivery)
    (ms : List Match) (queue : List Delivery) : Prop :=
  (ms = [] ∧ queue = old) ∨
    ∃ d, queue = old ++ [d] ∧ Gathers maximumQos publish publication ms d

lemma Merged.step {queue' : List Delivery} (hold : ∀ d ∈ old, d.publication ≠ publication)
    (h : Merged maximumQos publish publication old ms queue)
    (hmerge : mergeMatch maximumQos publish publication memory m queue = .ok queue') :
    Merged maximumQos publish publication old (ms ++ [m]) queue' := by
  rcases h with ⟨rfl, rfl⟩ | ⟨d, rfl, hd⟩
  · exact .inr (mergeMatch_first hold hmerge)
  · exact .inr (mergeMatch_next hold hd hmerge)

/-- **The loop over the plan gathers the client's matches** in one delivery. -/
theorem mergePlan_spec (publish : Publish) (memory : Nat → Bool)
    (hold : ∀ d ∈ old, d.publication ≠ publication) (plan : List Match) :
    ∀ (count : Nat) (fanout : Fanout) (slot : ClientSlot) (ms : List Match),
      At fanout index slot id →
      (∀ m ∈ plan, connectionIndex m.subscriberId fanout.slots.length = some index →
        m.subscriberId = id) → Merged fanout.maximumQos publish publication old ms slot.queue →
      (mergePlan publish publication memory count fanout plan).1 = .ok () →
      ∃ slot', At (mergePlan publish publication memory count fanout plan).2 index slot' id ∧
        Merged fanout.maximumQos publish publication old
          (ms ++ plan.filter (·.subscriberId == id)) slot'.queue := by
  induction plan with
  | nil =>
    intro count fanout slot ms hat hown hmerged hok
    refine ⟨slot, hat, ?_⟩
    rw [filter_nil, append_nil]
    exact hmerged
  | cons m rest ih =>
    intro count fanout slot ms hat hown hmerged hok
    have hlater : ∀ m' ∈ rest, connectionIndex m'.subscriberId fanout.slots.length = some index →
        m'.subscriberId = id := fun m' hm' => hown m' (mem_cons_of_mem m hm')
    unfold mergePlan at hok ⊢
    cases hplace : connectionIndex m.subscriberId fanout.slots.length with
    | none => simp [hplace] at hok
    | some other =>
      rw [hplace] at hok
      dsimp only at hok ⊢
      cases hfound : fanout.slots[other]? with
      | none => simp [hfound] at hok
      | some target =>
        rw [hfound] at hok
        dsimp only at hok ⊢
        cases hmerge : mergeMatch fanout.maximumQos publish publication (memory count) m
            target.queue with
        | error e =>
          rw [hmerge] at hok
          cases hok
        | ok queue =>
          rw [hmerge] at hok
          by_cases hsame : other = index
          · subst hsame
            have hid := hown m mem_cons_self hplace
            have hslot := hat.found
            rw [hfound, some.injEq] at hslot
            subst hslot
            have hnext := hat.set_self { target with queue := queue } rfl rfl
            rw [filter_cons_of_pos (by simpa using hid), append_cons]
            refine ih _ _ _ (ms ++ [m]) hnext ?_ (hmerged.step hold hmerge) hok
            intro m' hm' hat'
            rw [length_set] at hat'
            exact hlater m' hm' hat'
          have hid : m.subscriberId ≠ id := by
            intro hbad
            rw [hbad, hat.place, some.injEq] at hplace
            exact hsame hplace.symm
          rw [filter_cons_of_neg (by simpa using hid)]
          refine ih _ _ _ ms (hat.set_other hsame _) ?_ hmerged hok
          intro m' hm' hat'
          rw [length_set] at hat'
          exact hlater m' hm' hat'

lemma releaseRouteReservations_queue (plan : List Match) (fanout : Fanout) (index : Nat) :
    ((fanout.releaseRouteReservations plan).slots[index]?).map (·.queue) =
      (fanout.slots[index]?).map (·.queue) := by
  unfold releaseRouteReservations
  induction plan generalizing fanout with
  | nil => rfl
  | cons m rest ih =>
    rw [foldl_cons, ih]
    cases connectionIndex m.subscriberId fanout.slots.length with
    | none => rfl
    | some other =>
      rw [getElem?_modify]
      cases fanout.slots[index]? with
      | none => rfl
      | some slot =>
        by_cases hplace : other = index
        · simp [hplace]
        · simp [hplace]

lemma freshPublication_fresh {fanout : Fanout}
    (h : fanout.slots[index]? = some slot) {d : Delivery} (hd : d ∈ slot.queue) :
    d.publication ≠ fanout.freshPublication := by
  have hmem : d.publication ∈ (fanout.slots.flatMap (·.queue)).map (·.publication) :=
    mem_map_of_mem (mem_flatMap.mpr ⟨slot, mem_of_getElem? h, hd⟩)
  have hle : ∀ (l : List Nat) (start x : Nat), x ∈ l ∨ x ≤ start → x ≤ l.foldl max start := by
    intro l
    induction l with
    | nil => simp
    | cons y rest ih =>
      intro start x hx
      apply ih
      rcases hx with hx | hx
      · rcases mem_cons.mp hx with rfl | hx
        · exact .inr (Nat.le_max_right start x)
        · exact .inl hx
      · exact .inr (hx.trans (Nat.le_max_left start y))
  have hbound := hle _ 0 _ (.inl hmem)
  unfold freshPublication
  omega

/-- **The one delivery of a client**: it gathers the matches that found a place. -/
theorem enqueueLive_delivery {fanout fanout' : Fanout}
    {live targets : List Match} {memory : FanoutMemory} {routes : RoutePlan}
    (hat : At fanout index slot id)
    (hroom : slot.queue.length + slot.routeReservations < fanout.maxQueuedDeliveries)
    (hlive : live.filter (·.subscriberId == id) ≠ [])
    (hrun : fanout.enqueueLive publish live targets memory = (.ok routes, fanout')) :
    ∃ slot' delivery, fanout'.slots[index]? = some slot' ∧ slot'.queue = slot.queue ++ [delivery] ∧
      Gathers fanout.maximumQos publish fanout.freshPublication
        ((live.filter (·.subscriberId == id)).take (fanout.room slot)) delivery := by
  have hreserved := reservePlaces_spec live fanout slot hat
  have htaken : (reservePlaces fanout live).1.filter (·.subscriberId == id) ≠ [] := by
    rw [hreserved.taken]
    intro hnil
    rcases take_eq_nil_iff.mp hnil with hzero | hnone
    · unfold room at hzero
      omega
    · exact hlive hnone
  unfold enqueueLive at hrun
  generalize reservePlaces fanout live = reserved at hreserved htaken hrun
  dsimp only at hrun
  have hplan : reserved.1 ≠ [] := by
    intro hnil
    simp [hnil] at htaken
  rw [if_neg hplan] at hrun
  obtain ⟨-, hrun⟩ := of_guard hrun nofun
  obtain ⟨-, hrun⟩ := of_guard hrun nofun
  have hfresh : ∀ d ∈ slot.queue, d.publication ≠ fanout.freshPublication :=
    fun d hd => freshPublication_fresh hat.found hd
  have hmerge := mergePlan_spec publish memory.identifiers hfresh reserved.1 0 reserved.2 _ []
    hreserved.client
    (fun m hm => hreserved.own m hm) (.inl ⟨rfl, rfl⟩)
  cases hmerged : (mergePlan publish fanout.freshPublication memory.identifiers 0 reserved.2
      reserved.1).1 with
  | error e => simp [hmerged] at hrun
  | ok u =>
    rw [hmerged] at hrun
    obtain ⟨slot', hclient, hqueue⟩ := hmerge hmerged
    rw [hreserved.maximumQos, hreserved.taken] at hqueue
    rw [hreserved.taken] at htaken
    rcases hqueue with ⟨hnil, -⟩ | ⟨d, hqueue, hgathers⟩
    · exact absurd hnil htaken
    have hreleased := releaseRouteReservations_queue reserved.1
      (mergePlan publish fanout.freshPublication memory.identifiers 0 reserved.2
        reserved.1).2 index
    rw [hclient.found] at hreleased
    obtain ⟨final, hfinal, hsame⟩ := map_eq_some_iff.mp hreleased
    cases hrun
    exact ⟨final, d, hfinal, hsame.trans hqueue, hgathers⟩

end Netz.Mqtt.Fanout
