/-
What a subscription gets of the retained messages.

The exact lookup, the single pass and the counted pass of a query select the same entries, so the
answer depends on the map, the subscription and the room in the buffer only.
-/
import Netz.Proofs.Retained

namespace Netz.Mqtt.Retained

open Lib List

/-! ### Loops over the slots -/

/-- The entries a query selects. -/
def selected {α : Type} (wanted : Entry → Bool) (emit : Entry → α) (store : Store) : List α :=
  (store.entries.reduceOption.filter wanted).map emit

/-- What a query answers when it has found `answer`. -/
def answerInto {α : Type} (room : Nat) (answer : List α) : Except Error (List α) :=
  if room < answer.length then .error .matchBufferTooSmall else .ok answer

lemma countLoop_eq (wanted : Entry → Bool) (entries : List (Option Entry)) (required : Nat) :
    countLoop wanted entries required = required + (entries.reduceOption.filter wanted).length := by
  induction entries generalizing required with
  | nil => rfl
  | cons slot rest ih =>
    cases slot with
    | none => exact ih required
    | some entry =>
      unfold countLoop
      rw [ih, reduceOption_cons_of_some, filter_cons]
      by_cases hwanted : wanted entry = true
      · rw [if_pos hwanted, if_pos hwanted, length_cons]
        omega
      · rw [if_neg hwanted, if_neg hwanted]

/-- With room for what is wanted, the loop never reaches the end of the buffer. -/
theorem emitLoop_eq {α : Type} (wanted : Entry → Bool) (emit : Entry → α) {room : Nat}
    (entries : List (Option Entry)) (written : List α)
    (hroom : written.length + (entries.reduceOption.filter wanted).length ≤ room) :
    emitLoop room wanted emit entries written =
      .ok (written ++ (entries.reduceOption.filter wanted).map emit) := by
  induction entries generalizing written with
  | nil => exact congrArg Except.ok (append_nil written).symm
  | cons slot rest ih =>
    cases slot with
    | none => exact ih written hroom
    | some entry =>
      unfold emitLoop
      rw [reduceOption_cons_of_some, filter_cons] at hroom ⊢
      by_cases hwanted : wanted entry = true
      · rw [if_pos hwanted] at hroom ⊢
        rw [length_cons] at hroom
        rw [if_pos hwanted, if_pos (by omega), ih _ (by rw [length_append]; simp; omega),
          append_assoc]
        rfl
      rw [if_neg hwanted] at hroom ⊢
      rw [if_neg hwanted]
      exact ih written hroom

namespace Store

variable {store : Store}

lemma scanInto_eq {α : Type} (h : store.Sound) (room : Nat)
    (wanted : Entry → Bool) (emit : Entry → α) :
    store.scanInto room wanted emit = answerInto room (selected wanted emit store) := by
  have hcount := h.counted
  have hle : (store.entries.reduceOption.filter wanted).length ≤ store.entries.reduceOption.length :=
    length_filter_le _ _
  unfold scanInto answerInto selected
  rw [countLoop_eq, length_map, Nat.zero_add]
  by_cases hroomy : store.messageCount ≤ room
  · rw [if_pos hroomy, if_neg (by omega), emitLoop_eq _ _ _ _ (by simp; omega)]
    rfl
  rw [if_neg hroomy]
  by_cases hsmall : room < (store.entries.reduceOption.filter wanted).length
  · rw [if_pos hsmall, if_pos hsmall]
  · rw [if_neg hsmall, if_neg hsmall, emitLoop_eq _ _ _ _ (by simp; omega)]
    rfl

lemma topics_nodup (h : store.Sound) : (store.entries.reduceOption.map (·.topic)).Nodup :=
  h.indexed.nodup_slots

lemma exactInto_eq {α : Type} (h : store.Sound) (topic : Bytes) (room : Nat)
    (wanted : Entry → Bool) (emit : Entry → α) :
    store.exactInto topic room wanted emit =
      answerInto room (selected (fun entry => wanted entry && entry.topic == topic) emit store) := by
  unfold exactInto selected
  cases hget : store.index.get topic with
  | none =>
    have hnone : store.entries.reduceOption.filter
        (fun entry => wanted entry && entry.topic == topic) = [] := by
      rw [filter_eq_nil_iff]
      intro entry hmem hboth
      obtain ⟨index, hent⟩ := mem_entries_iff.mp hmem
      have htopic : entry.topic = topic := by simpa using (Bool.and_eq_true_iff.mp hboth).2
      simp [(get_iff h.indexed).mpr ⟨entry, hent, htopic⟩] at hget
    rw [hnone]
    rfl
  | some index =>
    obtain ⟨entry, hent, rfl⟩ := (get_iff h.indexed).mp hget
    have hone : store.entries.reduceOption.filter (fun other => other.topic == entry.topic) =
        [entry] :=
      filter_key_eq_singleton (topics_nodup h) (mem_entries_iff.mpr ⟨index, hent⟩)
    dsimp only
    rw [hent, ← filter_filter, hone, filter_cons]
    dsimp only
    by_cases hwanted : wanted entry = true
    · simp [hwanted, answerInto]
    · rw [if_pos (by simpa using hwanted), if_neg hwanted]
      rfl

/-- **Every branch selects what a scan selects.** -/
theorem selectInto_eq {α : Type} (h : store.Sound) {filter : Bytes}
    (hshare : sharePrefix.isPrefixOf filter = false) (room : Nat) (wanted : Entry → Bool)
    (emit : Entry → α) :
    store.selectInto filter room wanted emit = answerInto room
      (selected (fun entry => wanted entry && topicMatchesFilter entry.topic filter) emit store) := by
  unfold selectInto
  by_cases hplain : hasWildcards filter = false
  · rw [if_pos hplain, exactInto_eq h]
    have hsame : (fun entry : Entry => wanted entry && entry.topic == filter) =
        fun entry => wanted entry && topicMatchesFilter entry.topic filter := by
      funext entry
      congr 1
      rw [Bool.eq_iff_iff, topicMatchesFilter_plain hshare hplain]
      simp
    rw [hsame]
  · rw [if_neg hplain, scanInto_eq h]

end Store

/-! ### Deliveries -/

/-- What is left of a lifetime, in seconds. -/
def Publication.secondsLeft (publication : Publication) (nowNs : Int) : Option Nat :=
  publication.expiryInterval.map fun interval =>
    interval - (nowNs - publication.storedAtNs).toNat / nsPerS.toNat

/-- A retained publication as a subscription gets it. -/
def Publication.delivery (publication : Publication) (topic : Bytes) (subscription : Subscription)
    (context : DeliveryContext) (nowNs : Int) : Delivery where
  topic := topic
  payload := publication.payload
  qos := publication.qos.min subscription.qos
  retain := true
  properties := publication.properties
  subscriptionIdentifier := context.subscriptionIdentifier
  messageExpiryInterval := publication.secondsLeft nowNs

/-- The subscriber does not want what it has published itself. -/
def Publication.IsLocal (publication : Publication) (subscription : Subscription)
    (context : DeliveryContext) : Prop :=
  subscription.noLocal = true ∧
    ∃ client, context.subscriberId = some client ∧ publication.publisherId = some client

/-- `delivery` is due to the subscription. -/
def Shelf.Delivers (shelf : Shelf) (subscription : Subscription) (context : DeliveryContext)
    (nowNs : Int) (delivery : Delivery) : Prop :=
  deliversNothing subscription context = false ∧
    ∃ topic publication, shelf topic = some publication ∧ publication.expired nowNs = false ∧
      topicMatchesFilter topic subscription.topicFilter = true ∧
      ¬ publication.IsLocal subscription context ∧
      delivery = publication.delivery topic subscription context nowNs

/-- The answer of `deliveriesInto`, when `deliveries` are due. -/
def deliveryAnswer (subscription : Subscription) (context : DeliveryContext) (room : Nat)
    (deliveries : List Delivery) : Except Error (List Delivery) :=
  match validateTopicFilter subscription.topicFilter with
  | .error e => .error e
  | .ok _ =>
    if 2 < subscription.retainHandling then .error .invalidSubscription
    else if validSubscriptionIdentifier context.subscriptionIdentifier = false then
      .error .invalidProperty
    else answerInto room deliveries

lemma skipNoLocal_iff (subscription : Subscription) (context : DeliveryContext) (entry : Entry) :
    skipNoLocal subscription context entry = true ↔
      entry.published.IsLocal subscription context := by
  unfold skipNoLocal Publication.IsLocal Entry.published
  dsimp only
  by_cases hlocal : subscription.noLocal = false
  · simp [hlocal]
  rw [if_neg hlocal]
  cases context.subscriberId with
  | none => simp
  | some subscriberId =>
    cases entry.publisherId with
    | none => simp
    | some publisherId =>
      rw [beq_iff_eq]
      constructor
      · rintro rfl
        exact ⟨by simpa using hlocal, subscriberId, rfl, rfl⟩
      · rintro ⟨-, client, hsubscriber, hpublisher⟩
        exact (Option.some.inj hsubscriber).trans (Option.some.inj hpublisher).symm

/-- The lifetime an unexpired message is delivered with. -/
theorem remainingExpiry_live {entry : Entry} {nowNs : Int}
    (hlive : remainingExpiry entry nowNs ≠ some 0) :
    remainingExpiry entry nowNs = entry.published.secondsLeft nowNs := by
  unfold remainingExpiry at hlive ⊢
  unfold Publication.secondsLeft Entry.published
  cases hinterval : entry.expiryInterval with
  | none => rfl
  | some interval =>
    rw [hinterval, Option.map_some] at hlive
    rw [Option.map_some, Option.map_some]
    split at hlive
    · exact absurd rfl hlive
    rename_i hpos
    rw [if_neg hpos]
    dsimp only at hlive
    split at hlive
    · exact absurd rfl hlive
    rename_i hlasting
    rw [if_neg hlasting]
    have hmax : (max (nowNs - entry.storedAtNs) 0).toNat = (nowNs - entry.storedAtNs).toNat := by
      omega
    rw [hmax]

/-- The entries of which a subscription gets a delivery. -/
def wantedBy (subscription : Subscription) (context : DeliveryContext) (nowNs : Int)
    (entry : Entry) : Bool :=
  (remainingExpiry entry nowNs != some 0 && !skipNoLocal subscription context entry) &&
    topicMatchesFilter entry.topic subscription.topicFilter

lemma wantedBy_iff {subscription : Subscription} {context : DeliveryContext} {nowNs : Int}
    {entry : Entry} (h : entry.Sound) :
    wantedBy subscription context nowNs entry = true ↔ entry.published.expired nowNs = false ∧
        topicMatchesFilter entry.topic subscription.topicFilter = true ∧
        ¬ entry.published.IsLocal subscription context := by
  unfold wantedBy
  rw [Bool.and_eq_true, Bool.and_eq_true, bne_iff_ne, Ne, remainingExpiry_eq_zero h,
    Bool.not_eq_true, Bool.not_eq_true', ← skipNoLocal_iff, Bool.not_eq_true]
  exact ⟨fun ⟨⟨hlive, hother⟩, hmatch⟩ => ⟨hlive, hmatch, hother⟩,
    fun ⟨hlive, hmatch, hother⟩ => ⟨⟨hlive, hother⟩, hmatch⟩⟩

lemma effectiveFilter_plain {filter : Bytes} (h : sharePrefix.isPrefixOf filter = false) :
    effectiveFilter filter = filter := by simp [h, effectiveFilter]

namespace Store

/-- The deliveries of a query, by the slots. -/
def dueDeliveries (store : Store) (subscription : Subscription) (context : DeliveryContext)
    (nowNs : Int) : List Delivery :=
  if deliversNothing subscription context then []
  else
    selected (wantedBy subscription context nowNs)
      (deliveryForEntry subscription.qos context.subscriptionIdentifier nowNs) store

lemma deliveriesInto_eq {store : Store} (h : store.Sound) (subscription : Subscription)
    (context : DeliveryContext) (nowNs : Int) (room : Nat) :
    store.deliveriesInto subscription context nowNs room = deliveryAnswer subscription context room
        (store.dueDeliveries subscription context nowNs) := by
  unfold deliveriesInto deliveryAnswer dueDeliveries
  cases validateTopicFilter subscription.topicFilter with
  | error e => rfl
  | ok u =>
    dsimp only
    split
    · rfl
    split
    · rfl
    by_cases hnone : deliversNothing subscription context = true
    · rw [if_pos hnone, if_pos hnone]
      rfl
    have hshare : sharePrefix.isPrefixOf subscription.topicFilter = false := by
      unfold deliversNothing at hnone
      simp only [Bool.or_eq_true, not_or, Bool.not_eq_true] at hnone
      exact hnone.1.1
    rw [if_neg hnone, if_neg hnone, effectiveFilter_plain hshare, selectInto_eq h hshare]
    rfl

/-- **The deliveries are those of the map.** -/
theorem mem_dueDeliveries {store : Store} (h : store.Sound) {subscription : Subscription}
    {context : DeliveryContext} {nowNs : Int} {delivery : Delivery} :
    delivery ∈ store.dueDeliveries subscription context nowNs ↔
      Shelf.Delivers store.retained subscription context nowNs delivery := by
  have hform : ∀ entry : Entry, wantedBy subscription context nowNs entry = true →
      deliveryForEntry subscription.qos context.subscriptionIdentifier nowNs entry =
        entry.published.delivery entry.topic subscription context nowNs := by
    intro entry hwanted
    unfold wantedBy at hwanted
    have hlive : remainingExpiry entry nowNs ≠ some 0 := by
      simp only [Bool.and_eq_true, bne_iff_ne] at hwanted
      exact hwanted.1.1
    unfold deliveryForEntry Publication.delivery
    rw [remainingExpiry_live hlive]
    rfl
  unfold dueDeliveries Shelf.Delivers
  by_cases hnone : deliversNothing subscription context = true
  · simp [hnone]
  rw [if_neg hnone]
  unfold selected
  rw [mem_map]
  constructor
  · rintro ⟨entry, hmem, rfl⟩
    obtain ⟨hent, hwanted⟩ := mem_filter.mp hmem
    obtain ⟨hlive, hmatch, hother⟩ := (wantedBy_iff (h.entries entry hent).1).mp hwanted
    obtain ⟨index, hat⟩ := mem_entries_iff.mp hent
    exact ⟨by simpa using hnone, entry.topic, entry.published,
      (retained_iff h.indexed).mpr ⟨index, entry, hat, rfl, rfl⟩, hlive, hmatch, hother,
      hform entry hwanted⟩
  rintro ⟨-, topic, publication, hkept, hlive, hmatch, hother, rfl⟩
  obtain ⟨index, entry, hat, rfl, rfl⟩ := (retained_iff h.indexed).mp hkept
  have hent := mem_entries_iff.mpr ⟨index, hat⟩
  have hwanted := (wantedBy_iff (h.entries entry hent).1).mpr ⟨hlive, hmatch, hother⟩
  exact ⟨entry, mem_filter.mpr ⟨hent, hwanted⟩, hform entry hwanted⟩

lemma dueDeliveries_nodup {store : Store} (h : store.Sound) (subscription : Subscription)
    (context : DeliveryContext) (nowNs : Int) :
    ((store.dueDeliveries subscription context nowNs).map (·.topic)).Nodup := by
  unfold dueDeliveries
  split
  · exact nodup_nil
  unfold selected
  rw [map_map]
  exact (filter_sublist.map Entry.topic).nodup (topics_nodup h)

/-! ### Every run -/

/-- **The retained store refines a bounded map**, and its queries read that map. -/
theorem retained_refines_map (options : Options) (calls : List Call) :
    let store := exec call { options := options } calls
    let shelf := Shelf.after (trace call { options := options } calls)
    store.Sound ∧ store.options = options ∧ store.retained = shelf ∧
      (∀ request memory e, (store.applyPublish request memory).1 = .error e →
        (store.applyPublish request memory).2 = store) ∧
      ∀ subscription context nowNs, ∃ deliveries : List Delivery,
        (deliveries.map (·.topic)).Nodup ∧
        (∀ delivery, delivery ∈ deliveries ↔ shelf.Delivers subscription context nowNs delivery) ∧
        ∀ room, store.deliveriesInto subscription context nowNs room =
          deliveryAnswer subscription context room deliveries := by
  obtain ⟨hsound, hoptions, hretained⟩ := run_sound options calls
  refine ⟨hsound, hoptions, hretained, ?_, fun subscription context nowNs =>
    ⟨_, dueDeliveries_nodup hsound subscription context nowNs, fun delivery => ?_,
      deliveriesInto_eq hsound subscription context nowNs⟩⟩
  · intro request memory e herror
    rcases applyPublish_spec hsound request memory with
      ⟨found, hrefused⟩ | ⟨result, store', happlied, -⟩
    · rw [hrefused]
    · simp [happlied] at herror
  · rw [mem_dueDeliveries hsound, hretained]

end Store

end Netz.Mqtt.Retained
