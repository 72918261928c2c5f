/-
The retained store holds a map from topics to publications.

`Shelf` is what the store is for: the last publication of each topic, as the accepted calls have
left it.  `Sound` is what the slots, the index and the counters have to do with one another.  A call
is a change of a few slots, each of which changes the map at one topic, or it is refused and changes
nothing; and whatever branch a query takes, it finds the entries a scan of all slots finds.
-/
import Netz.Lib.Positions
import Netz.Mqtt.Retained
import Netz.Proofs.Topic

namespace Netz.Mqtt.Retained

open Lib List Option Function

/-! ### The map -/

/-- What is retained for a topic. -/
structure Publication where
  payload : Bytes
  qos : QoS
  properties : List Property
  publisherId : Option Nat
  storedAtNs : Int
  expiryInterval : Option Nat

abbrev Shelf : Type := Bytes → Option Publication

/-- The lifetime of a publication has ended. -/
def Publication.expired (publication : Publication) (nowNs : Int) : Bool :=
  match publication.expiryInterval with
  | none => false
  | some interval => decide (publication.storedAtNs + interval * nsPerS ≤ nowNs)

def Request.publication (request : Request) : Publication where
  payload := request.payload
  qos := request.qos
  properties := request.properties.filter keepRetainedProperty
  publisherId := request.publisherId
  storedAtNs := request.nowNs
  expiryInterval := messageExpiryInterval request.properties

/-- What an accepted publication does to the map. -/
def Shelf.publish (shelf : Shelf) (request : Request) : Shelf :=
  if request.retain = false then shelf
  else if request.payload = [] ∨ messageExpiryInterval request.properties = some 0 then
    update shelf request.topic none
  else update shelf request.topic (some request.publication)

/-- A call that was answered, on the map. -/
def Shelf.step (shelf : Shelf) (event : Event Store Store.Call Store.Reply) : Shelf :=
  match event.input, event.output with
  | .applyPublish request _, .applied (.ok _) => shelf.publish request
  | .applyPublish _ _, _ => shelf
  | .remove topic, _ => update shelf topic none
  | .pruneExpired nowNs, _ =>
    fun topic => (shelf topic).filter fun publication => !publication.expired nowNs

/-- The map that a run leaves. -/
def Shelf.after (events : List (Event Store Store.Call Store.Reply)) : Shelf :=
  events.foldl Shelf.step fun _ => none

def Entry.published (entry : Entry) : Publication where
  payload := entry.payload
  qos := entry.qos
  properties := entry.properties
  publisherId := entry.publisherId
  storedAtNs := entry.storedAtNs
  expiryInterval := entry.expiryInterval

namespace Store

/-- What the store holds for a topic. -/
def retained (store : Store) : Shelf :=
  fun topic => ((store.index.get topic).bind store.entryAt).map (·.published)

end Store

/-! ### Sound stores -/

/-- The topic of a slot. -/
def topicKeys (slot : Option Entry) : List Bytes := slot.toList.map (·.topic)

structure Entry.Sound (entry : Entry) : Prop where
  /-- An empty payload is never stored. -/
  payload : entry.payload ≠ []
  /-- Nor is a message whose lifetime is over at once. -/
  lives : entry.expiryInterval ≠ some 0
  aliasFree : topicAlias entry.properties = none
  bytes : entry.allocationBytes =
    entry.topic.length + entry.payload.length + clonedPropertyBytes entry.properties

/-- **The slots, the index and the counters agree**, within the limits. -/
structure Store.Sound (store : Store) : Prop where
  indexed : Positions topicKeys store.entries store.index
  counted : store.messageCount = store.entries.reduceOption.length
  summed : store.totalBytes = (store.entries.reduceOption.map (·.allocationBytes)).sum
  entries : ∀ entry ∈ store.entries.reduceOption,
    entry.Sound ∧ entry.allocationBytes ≤ store.options.maxMessageBytes
  messages : store.messageCount ≤ store.options.maxMessages
  bytes : store.totalBytes ≤ store.options.maxTotalBytes

namespace Store

lemma sound_empty (options : Options) : ({ options := options } : Store).Sound where
  indexed := .empty
  counted := rfl
  summed := rfl
  entries := fun _ hmem => by cases hmem
  messages := Nat.zero_le _
  bytes := Nat.zero_le _

variable {index : Nat} {store : Store}

lemma entryAt_iff {entry : Entry} :
    store.entryAt index = some entry ↔ store.entries[index]? = some (some entry) :=
  join_eq_some_iff

lemma mem_entries_iff {entry : Entry} :
    entry ∈ store.entries.reduceOption ↔ ∃ index, store.entryAt index = some entry := by
  rw [reduceOption_mem_iff, mem_iff_getElem?]
  exact exists_congr fun index => (entryAt_iff).symm

variable {topic : Bytes}

lemma get_iff (h : Positions topicKeys store.entries store.index)
    : store.index.get topic = some index ↔
      ∃ entry, store.entryAt index = some entry ∧ entry.topic = topic := by
  simp only [h.slots_iff topic index, entryAt_iff]

lemma retained_iff (h : Positions topicKeys store.entries store.index)
    {publication : Publication} :
    store.retained topic = some publication ↔
      ∃ index entry, store.entryAt index = some entry ∧ entry.topic = topic ∧
        entry.published = publication := by
  unfold retained
  rw [map_eq_some_iff]
  constructor
  · rintro ⟨entry, hbind, hpub⟩
    obtain ⟨index, hget, hent⟩ := bind_eq_some_iff.mp hbind
    obtain ⟨found, hfound, htopic⟩ := (get_iff h).mp hget
    obtain rfl : found = entry := some.inj (hfound.symm.trans hent)
    exact ⟨index, found, hfound, htopic, hpub⟩
  rintro ⟨index, entry, hent, htopic, hpub⟩
  exact ⟨entry, bind_eq_some_iff.mpr ⟨index, (get_iff h).mpr ⟨entry, hent, htopic⟩,
    hent⟩, hpub⟩

lemma retained_eq_none (h : Positions topicKeys store.entries store.index)
    : store.retained topic = none ↔ store.index.get topic = none := by
  constructor
  · intro hnone
    cases hget : store.index.get topic with
    | none => rfl
    | some index =>
      obtain ⟨entry, hent, htopic⟩ := (get_iff h).mp hget
      simp [(retained_iff h).mpr ⟨index, entry, hent, htopic, rfl⟩] at hnone
  · intro hnone
    simp [hnone, retained]

/-- **A change of one slot is a change at one topic.** -/
theorem retained_change {store store' : Store} (h : Positions topicKeys store.entries store.index)
    (h' : Positions topicKeys store'.entries store'.index) (index : Nat) (slot : Option Entry)
    (hat : ∀ other, store'.entryAt other = if other = index then slot else store.entryAt other)
    (hold : ∀ entry, store.entryAt index = some entry → entry.topic = topic)
    (hnew : ∀ entry, slot = some entry → entry.topic = topic)
    (hgone : slot = none → store'.index.get topic = none) :
    store'.retained = update store.retained topic (slot.map (·.published)) := by
  funext asked
  by_cases htopic : asked = topic
  · subst htopic
    rw [update_self]
    cases hslot : slot with
    | none => exact (retained_eq_none h').mpr (hgone hslot)
    | some entry =>
      refine (retained_iff h').mpr ⟨index, entry, ?_, hnew entry hslot, rfl⟩
      rw [hat, if_pos rfl, hslot]
  rw [update_of_ne htopic]
  apply ext
  intro publication
  rw [retained_iff h, retained_iff h']
  constructor
  · rintro ⟨other, entry, hent, hasked, hpub⟩
    rw [hat] at hent
    split at hent
    · exact absurd (hasked.symm.trans (hnew entry hent)) htopic
    · exact ⟨other, entry, hent, hasked, hpub⟩
  rintro ⟨other, entry, hent, hasked, hpub⟩
  refine ⟨other, entry, ?_, hasked, hpub⟩
  rw [hat, if_neg ?_]
  · exact hent
  · rintro rfl
    exact htopic (hasked.symm.trans (hold entry hent))

/-! ### Changes of one slot -/

lemma Sound.entry (h : store.Sound) {entry : Entry} (hent : store.entryAt index = some entry) :
    entry.Sound ∧ entry.allocationBytes ≤ store.options.maxMessageBytes :=
  h.entries entry (mem_entries_iff.mpr ⟨index, hent⟩)

lemma Sound.removeAt (h : store.Sound) {entry : Entry}
    (hent : store.entryAt index = some entry) : (store.removeAt index entry).Sound := by
  have hslot := (entryAt_iff).mp hent
  have hperm := reduceOption_set_none_perm hslot
  have hcount := hperm.length_eq
  have hsum := (hperm.map (·.allocationBytes)).sum_nat
  rw [length_cons] at hcount
  rw [map_cons, sum_cons] at hsum
  refine ⟨?_, ?_, ?_, ?_, ?_, ?_⟩
  · exact h.indexed.removeKey hslot (mem_singleton_self entry.topic)
      (fun topic => by simp [topicKeys])
  · show store.messageCount - 1 = (store.entries.set index none).reduceOption.length
    rw [h.counted]
    omega
  · show store.totalBytes - entry.allocationBytes =
      ((store.entries.set index none).reduceOption.map (·.allocationBytes)).sum
    rw [h.summed]
    omega
  · intro other hmem
    exact h.entries other (hperm.mem_iff.mpr (mem_cons_of_mem entry hmem))
  · exact Nat.le_trans (Nat.sub_le _ _) h.messages
  · exact Nat.le_trans (Nat.sub_le _ _) h.bytes

lemma retained_removeAt (h : store.Sound) {entry : Entry}
    (hent : store.entryAt index = some entry) :
    (store.removeAt index entry).retained = update store.retained entry.topic none := by
  refine retained_change h.indexed (h.removeAt hent).indexed index none
    (fun other => ?_) (fun found hfound => ?_) (fun found hfound => by cases hfound) (fun _ => ?_)
  · unfold entryAt Store.removeAt
    by_cases hother : other = index
    · rw [if_pos hother, hother, getElem?_set_self']
      cases store.entries[index]? <;> rfl
    · rw [if_neg hother, getElem?_set_ne (Ne.symm hother)]
  · obtain rfl := some.inj (hfound.symm.trans hent)
    rfl
  · show (store.index.remove entry.topic).get entry.topic = none
    rw [Table.get_remove, if_pos rfl]

lemma reduceOption_set_perm {entries : List (Option Entry)} {old : Entry}
    (h : entries[index]? = some (some old)) (new : Entry) :
    (old :: (entries.set index (some new)).reduceOption).Perm (new :: entries.reduceOption) :=
  filterMap_set_perm h (some new) id

lemma Sound.replaceAt (h : store.Sound) {old new : Entry}
    (hold : store.entryAt index = some old) (htopic : new.topic = old.topic)
    (hnew : new.Sound ∧ new.allocationBytes ≤ store.options.maxMessageBytes)
    (hfits : store.totalBytes - old.allocationBytes + new.allocationBytes ≤
      store.options.maxTotalBytes) : (store.replaceAt index old new).Sound := by
  have hslot := (entryAt_iff).mp hold
  have hperm := reduceOption_set_perm hslot new
  have hcount := hperm.length_eq
  have hsum := (hperm.map (·.allocationBytes)).sum_nat
  have hwithout := ((reduceOption_set_none_perm hslot).map (·.allocationBytes)).sum_nat
  rw [length_cons, length_cons] at hcount
  rw [map_cons, map_cons, sum_cons, sum_cons] at hsum
  rw [map_cons, sum_cons] at hwithout
  refine ⟨?_, ?_, ?_, ?_, h.messages, hfits⟩
  · refine h.indexed.replace hslot ?_
    simp [topicKeys, htopic]
  · show store.messageCount = (store.entries.set index (some new)).reduceOption.length
    rw [h.counted]
    omega
  · show store.totalBytes - old.allocationBytes + new.allocationBytes =
      ((store.entries.set index (some new)).reduceOption.map (·.allocationBytes)).sum
    rw [h.summed]
    omega
  intro other hother
  rcases mem_cons.mp (hperm.mem_iff.mp (mem_cons_of_mem old hother)) with rfl | hmem
  · exact hnew
  · exact h.entries other hmem

lemma retained_replaceAt {old new : Entry} (h : Positions topicKeys store.entries store.index)
    (h' : (store.replaceAt index old new).Sound) (hold : store.entryAt index = some old)
    (htopic : new.topic = old.topic) :
    (store.replaceAt index old new).retained =
      update store.retained new.topic (some new.published) := by
  refine retained_change h h'.indexed index (some new)
    (fun other => ?_) (fun found hfound => ?_) (fun found hfound => ?_) (fun hnone => ?_)
  · unfold entryAt Store.replaceAt
    by_cases hother : other = index
    · have hlt := lt_of_getElem? (entryAt_iff.mp hold)
      simp [hother, getElem?_set_self hlt]
    · rw [if_neg hother, getElem?_set_ne (Ne.symm hother)]
  · obtain rfl := some.inj (hfound.symm.trans hold)
    exact htopic.symm
  · obtain rfl := some.inj hfound
    rfl
  · cases hnone

lemma Sound.insertEntry (h : store.Sound) {entry : Entry}
    (hnew : store.index.get entry.topic = none)
    (hent : entry.Sound ∧ entry.allocationBytes ≤ store.options.maxMessageBytes)
    (hmsgs : store.messageCount < store.options.maxMessages)
    (hbytes : entry.allocationBytes ≤ store.options.maxTotalBytes - store.totalBytes) :
    (store.insertEntry entry).Sound := by
  have hperm := reduceOption_insertSlot_perm entry store.entries
  refine ⟨h.indexed.insertSlot rfl rfl hnew, ?_, ?_, ?_, hmsgs, ?_⟩
  · show store.messageCount + 1 = (insertSlot entry store.entries).reduceOption.length
    rw [hperm.length_eq, length_cons, h.counted]
  · show store.totalBytes + entry.allocationBytes =
      ((insertSlot entry store.entries).reduceOption.map (·.allocationBytes)).sum
    rw [(hperm.map (·.allocationBytes)).sum_nat, map_cons, sum_cons, h.summed]
    omega
  · intro other hmem
    rcases mem_cons.mp (hperm.mem_iff.mp hmem) with rfl | hmem
    · exact hent
    · exact h.entries other hmem
  show store.totalBytes + entry.allocationBytes ≤ store.options.maxTotalBytes
  have hold := h.bytes
  omega

lemma retained_insertEntry {entry : Entry}
    (h : Positions topicKeys store.entries store.index) (h' : (store.insertEntry entry).Sound) :
    (store.insertEntry entry).retained =
      update store.retained entry.topic (some entry.published) := by
  refine retained_change h h'.indexed (vacantSlot store.entries) (some entry)
    (fun other => ?_) (fun found hfound => ?_) (fun found hfound => ?_) (fun hnone => ?_)
  · unfold entryAt Store.insertEntry
    rw [getElem?_insertSlot]
    split
    · rfl
    · rfl
  · exact absurd (entryAt_iff.mp hfound) (getElem?_vacantSlot store.entries found)
  · obtain rfl := some.inj hfound
    rfl
  · cases hnone

end Store

end Netz.Mqtt.Retained

namespace Netz.Mqtt.Retained

open Lib List

/-! ### Entries -/

lemma topicAlias_kept (properties : List Property) :
    topicAlias (properties.filter keepRetainedProperty) = none := by
  unfold topicAlias
  rw [findSome?_eq_none_iff]
  intro property hmem
  have hkept := (mem_filter.mp hmem).2
  cases property with
  | twoByte id value =>
    cases id <;> first
      | rfl
      | cases hkept
  | _ => rfl

variable {request : Request} {entry : Entry}

lemma cloneEntry_ok (h : cloneEntry request = .ok entry) :
    entry.topic = request.topic ∧ entry.published = request.publication ∧
      entry.allocationBytes =
        entry.topic.length + entry.payload.length + clonedPropertyBytes entry.properties := by
  unfold cloneEntry at h
  dsimp only at h
  split at h
  · cases h
  unfold checkedAdd at h
  split at h
  · cases h
  rename_i bytes hbytes
  cases h
  split at hbytes
  · cases hbytes
    exact ⟨rfl, rfl, rfl⟩
  · cases hbytes

lemma sound_cloneEntry (h : cloneEntry request = .ok entry)
    (hlasting : ¬ (request.payload.length = 0 ∨
      messageExpiryInterval request.properties = some 0)) : entry.Sound := by
  obtain ⟨-, hpub, hbytes⟩ := cloneEntry_ok h
  have hpay : entry.payload = request.payload := congrArg Publication.payload hpub
  have hinterval : entry.expiryInterval = messageExpiryInterval request.properties :=
    congrArg Publication.expiryInterval hpub
  have hprops : entry.properties = request.properties.filter keepRetainedProperty :=
    congrArg Publication.properties hpub
  refine ⟨?_, ?_, ?_, hbytes⟩
  · rw [hpay]
    exact fun hnil => hlasting (.inl (by rw [hnil]; rfl))
  · rw [hinterval]
    exact fun hzero => hlasting (.inr hzero)
  · rw [hprops]
    exact topicAlias_kept request.properties

lemma remainingExpiry_eq_zero (h : entry.Sound) (nowNs : Int) :
    remainingExpiry entry nowNs = some 0 ↔ entry.published.expired nowNs = true := by
  have hlives := h.lives
  unfold remainingExpiry Publication.expired Entry.published
  dsimp only
  cases hinterval : entry.expiryInterval with
  | none => simp
  | some interval =>
    have hpos : interval ≠ 0 := fun hzero => hlives (by rw [hinterval, hzero])
    have hunit : nsPerS.toNat = 1000000000 := rfl
    have hunit' : nsPerS = 1000000000 := rfl
    rw [Option.map_some, if_neg hpos, hunit, hunit', Option.some.injEq, decide_eq_true_iff]
    split
    · omega
    · omega

namespace Store

/-! ### Calls -/

variable {store : Store} {entry : Entry} {index : Nat} {nowNs : Int}

lemma remove_spec (h : store.Sound) (topic : Bytes) :
    ∃ removed store', store.remove topic = some (removed, store') ∧ store'.Sound ∧
      store'.options = store.options ∧
      store'.retained = Function.update store.retained topic none ∧
      removed = (store.retained topic).isSome := by
  unfold remove
  cases hget : store.index.get topic with
  | none =>
    have hnone := (retained_eq_none h.indexed).mpr hget
    refine ⟨false, store, rfl, h, rfl, ?_, by rw [hnone]; rfl⟩
    exact (Function.update_eq_self_iff.mpr hnone.symm).symm
  | some index =>
    obtain ⟨entry, hent, rfl⟩ := (get_iff h.indexed).mp hget
    dsimp only
    rw [hent]
    refine ⟨true, _, rfl, h.removeAt hent, rfl, retained_removeAt h hent, ?_⟩
    rw [(retained_iff h.indexed).mpr ⟨index, entry, hent, rfl, rfl⟩]
    rfl

lemma placeEntry_spec (h : store.Sound) (hent : entry.Sound) (memory : Memory) :
    (∃ e, e ≠ .panic ∧ store.placeEntry entry memory = (.error e, store)) ∨
      ∃ store', store.placeEntry entry memory =
          (.ok (if (store.retained entry.topic).isSome then .replaced else .inserted), store') ∧
        store'.Sound ∧ store'.options = store.options ∧
        store'.retained = Function.update store.retained entry.topic (some entry.published) := by
  unfold placeEntry
  by_cases hlarge : store.options.maxMessageBytes < entry.allocationBytes ∨
      store.options.maxTotalBytes < entry.allocationBytes
  · simp [hlarge]
  rw [if_neg hlarge]
  rw [not_or, not_lt] at hlarge
  cases hget : store.index.get entry.topic with
  | some index =>
    obtain ⟨old, hold, htopic⟩ := (get_iff h.indexed).mp hget
    have hsome : (store.retained entry.topic).isSome = true := by
      rw [(retained_iff h.indexed).mpr ⟨index, old, hold, htopic, rfl⟩]
      rfl
    dsimp only
    rw [hold]
    dsimp only
    by_cases hfull : store.options.maxTotalBytes <
        store.totalBytes - old.allocationBytes + entry.allocationBytes
    · simp [hfull]
    rw [if_neg hfull, hsome]
    have hsound := h.replaceAt hold htopic.symm ⟨hent, hlarge.1⟩ (not_lt.mp hfull)
    exact .inr ⟨_, rfl, hsound, rfl, retained_replaceAt h.indexed hsound hold htopic.symm⟩
  | none =>
    have hnone : (store.retained entry.topic).isSome = false := by
      rw [(retained_eq_none h.indexed).mpr hget]
      rfl
    by_cases hfull : store.options.maxMessages ≤ store.messageCount ∨
        store.options.maxTotalBytes - store.totalBytes < entry.allocationBytes
    · simp [hfull]
    rw [if_neg hfull]
    rw [not_or, not_le, not_lt] at hfull
    by_cases hmemory : memory.tables = false
    · simp [hmemory]
    rw [if_neg hmemory, hnone]
    have hsound := h.insertEntry hget ⟨hent, hlarge.1⟩ hfull.1 hfull.2
    exact .inr ⟨_, rfl, hsound, rfl, retained_insertEntry h.indexed hsound⟩

lemma applyPublish_spec (h : store.Sound) (request : Request) (memory : Memory) :
    (∃ e, store.applyPublish request memory = (.error e, store)) ∨
      ∃ result store', store.applyPublish request memory = (.ok result, store') ∧ store'.Sound ∧
        store'.options = store.options ∧
        store'.retained = Shelf.publish store.retained request := by
  unfold applyPublish
  cases validateTopicName request.topic with
  | error e => exact .inl ⟨e, rfl⟩
  | ok u =>
    by_cases hretain : request.retain = false
    · rw [if_pos hretain]
      refine .inr ⟨_, store, rfl, h, rfl, ?_⟩
      simp [hretain, Shelf.publish]
    rw [if_neg hretain]
    cases validatePublishProperties request.properties with
    | error e => exact .inl ⟨e, rfl⟩
    | ok u =>
      dsimp only
      split
      · exact .inl ⟨_, rfl⟩
      by_cases hempty : request.payload.length = 0 ∨
          messageExpiryInterval request.properties = some 0
      · rw [if_pos hempty]
        rw [length_eq_zero_iff] at hempty
        obtain ⟨removed, store', hremove, hsound, hopts, hkept, -⟩ :=
          remove_spec h request.topic
        rw [hremove]
        refine .inr ⟨_, store', rfl, hsound, hopts, ?_⟩
        simp [hretain, hempty, hkept, Shelf.publish]
      rw [if_neg hempty]
      split
      · exact .inl ⟨_, rfl⟩
      cases hclone : cloneEntry request with
      | error e => exact .inl ⟨e, rfl⟩
      | ok entry =>
        obtain ⟨htopic, hpub, -⟩ := cloneEntry_ok hclone
        rcases placeEntry_spec h (sound_cloneEntry hclone hempty) memory with
          ⟨e, -, hplace⟩ | ⟨store', hplace, hsound, hopts, hkept⟩
        · exact .inl ⟨e, hplace⟩
        refine .inr ⟨_, store', hplace, hsound, hopts, ?_⟩
        rw [length_eq_zero_iff] at hempty
        simp [hretain, hempty, hkept, htopic, hpub, Shelf.publish]

/-! ### Pruning -/

/-- Whether a slot holds a message whose lifetime is over. -/
def slotExpired (store : Store) (nowNs : Int) (index : Nat) : Bool :=
  (store.entryAt index).any fun entry => entry.published.expired nowNs

lemma entryAt_removeAt {other : Nat} (h : other ≠ index) :
    (store.removeAt index entry).entryAt other = store.entryAt other := by
  unfold entryAt removeAt
  rw [getElem?_set_ne (Ne.symm h)]

lemma entryAt_removeAt_self : (store.removeAt index entry).entryAt index = none := by
  unfold entryAt removeAt
  rw [getElem?_set_self']
  cases store.entries[index]? <;> rfl

lemma remove_entry (h : store.Sound) (hent : store.entryAt index = some entry) :
    store.remove entry.topic = some (true, store.removeAt index entry) := by
  simp [(get_iff h.indexed).mpr ⟨entry, hent, rfl⟩, hent, remove]

lemma slotExpired_iff :
    store.slotExpired nowNs index = true ↔
      ∃ entry, store.entryAt index = some entry ∧ entry.published.expired nowNs = true := by
  unfold slotExpired
  exact Option.any_eq_true _ _

lemma pruneLoop_expired (h : store.Sound) (hent : store.entryAt index = some entry)
    (hover : entry.published.expired nowNs = true) (rest : List Nat) :
    pruneLoop nowNs store (index :: rest) =
      (pruneLoop nowNs (store.removeAt index entry) rest).map fun later =>
        (later.1 + 1, later.2) := by
  rw [pruneLoop, hent]
  dsimp only
  rw [if_pos ((remainingExpiry_eq_zero (h.entry hent).1 nowNs).mpr hover), remove_entry h hent]

lemma pruneLoop_live (h : store.Sound) (hlive : store.slotExpired nowNs index ≠ true)
    (rest : List Nat) : pruneLoop nowNs store (index :: rest) = pruneLoop nowNs store rest := by
  rw [pruneLoop]
  cases hent : store.entryAt index with
  | none => rfl
  | some entry =>
    dsimp only
    rw [if_neg]
    intro hzero
    exact hlive (slotExpired_iff.mpr
      ⟨entry, hent, (remainingExpiry_eq_zero (h.entry hent).1 nowNs).mp hzero⟩)

/-- **The sweep empties the slots whose messages have expired**, and no other. -/
theorem pruneLoop_spec {nowNs : Int} {indices : List Nat} (hnodup : indices.Nodup) {store : Store}
    (h : store.Sound) :
    ∃ store', pruneLoop nowNs store indices =
        some ((indices.filter (store.slotExpired nowNs)).length, store') ∧ store'.Sound ∧
      store'.options = store.options ∧
      ∀ index, store'.entryAt index =
        if index ∈ indices ∧ store.slotExpired nowNs index = true then none
        else store.entryAt index := by
  induction indices generalizing store with
  | nil => exact ⟨store, rfl, h, rfl, fun index => by simp⟩
  | cons first rest ih =>
    obtain ⟨hfirst, hrest⟩ := nodup_cons.mp hnodup
    by_cases hexp : store.slotExpired nowNs first = true
    · obtain ⟨entry, hent, hover⟩ := (slotExpired_iff).mp hexp
      obtain ⟨store', hloop, hsound, hopts, hat⟩ := ih hrest (h.removeAt hent)
      have hsame : ∀ index ∈ rest, (store.removeAt first entry).slotExpired nowNs index =
          store.slotExpired nowNs index := by
        intro index hmem
        simp [entryAt_removeAt (ne_of_mem_of_not_mem hmem hfirst), slotExpired]
      refine ⟨store', ?_, hsound, hopts, fun index => ?_⟩
      · rw [pruneLoop_expired h hent hover, hloop, filter_cons, if_pos hexp,
          filter_congr hsame]
        rfl
      rw [hat]
      by_cases hidx : index = first
      · subst hidx
        rw [if_neg (fun hmem => hfirst hmem.1), if_pos ⟨mem_cons_self, hexp⟩]
        exact entryAt_removeAt_self
      · simp [entryAt_removeAt hidx, hidx, slotExpired]
    obtain ⟨store', hloop, hsound, hopts, hat⟩ := ih hrest h
    refine ⟨store', ?_, hsound, hopts, fun index => ?_⟩
    · rw [pruneLoop_live h hexp, hloop, filter_cons, if_neg hexp]
    rw [hat]
    by_cases hidx : index = first
    · subst hidx
      simp [hexp]
    · simp [hidx]

lemma pruneExpired_spec (h : store.Sound) (nowNs : Int) :
    ∃ removed store', store.pruneExpired nowNs = some (removed, store') ∧ store'.Sound ∧
      store'.options = store.options ∧
      store'.retained = fun topic =>
        (store.retained topic).filter fun publication => !publication.expired nowNs := by
  obtain ⟨store', hloop, hsound, hopts, hat⟩ :=
    @pruneLoop_spec nowNs (range store.entries.length) nodup_range store h
  refine ⟨_, store', hloop, hsound, hopts, ?_⟩
  have hslot : ∀ index entry, store'.entryAt index = some entry ↔
      store.entryAt index = some entry ∧ entry.published.expired nowNs = false := by
    intro index entry
    rw [hat]
    by_cases hexp : store.slotExpired nowNs index = true
    · obtain ⟨found, hfound, hover⟩ := (slotExpired_iff).mp hexp
      have hlt := lt_of_getElem? (entryAt_iff.mp hfound)
      rw [if_pos ⟨mem_range.mpr hlt, hexp⟩, hfound]
      refine iff_of_false (by simp) ?_
      rintro ⟨hsame, hlive⟩
      obtain rfl := Option.some.inj hsame
      simp [hover] at hlive
    rw [if_neg (fun hboth => hexp hboth.2)]
    refine (and_iff_left_of_imp fun hent => ?_).symm
    rw [slotExpired_iff] at hexp
    by_contra hover
    exact hexp ⟨entry, hent, by simpa using hover⟩
  funext topic
  apply Option.ext
  intro publication
  rw [retained_iff hsound.indexed, Option.filter_eq_some_iff, retained_iff h.indexed]
  constructor
  · rintro ⟨index, entry, hent, htopic, rfl⟩
    obtain ⟨hpre, hlive⟩ := (hslot index entry).mp hent
    exact ⟨⟨index, entry, hpre, htopic, rfl⟩, by rw [hlive]; rfl⟩
  · rintro ⟨⟨index, entry, hpre, htopic, rfl⟩, hlive⟩
    exact ⟨index, entry, (hslot index entry).mpr ⟨hpre, by simpa using hlive⟩, htopic, rfl⟩

/-! ### Runs -/

/-- **A call does to the store what it does to the map.** -/
theorem call_step (h : store.Sound) (input : Call) :
    (store.call input).2.Sound ∧ (store.call input).2.options = store.options ∧
      (store.call input).2.retained = Shelf.step store.retained (event call store input) := by
  cases input with
  | applyPublish request memory =>
    have hcall : store.call (.applyPublish request memory) =
        (.applied (store.applyPublish request memory).1,
          (store.applyPublish request memory).2) := rfl
    unfold event Shelf.step
    rw [hcall]
    rcases applyPublish_spec h request memory with
      ⟨e, hrefused⟩ | ⟨result, store', happlied, hsound, hopts, hkept⟩
    · rw [hrefused]
      exact ⟨h, rfl, rfl⟩
    · rw [happlied]
      exact ⟨hsound, hopts, hkept⟩
  | remove topic =>
    obtain ⟨removed, store', hremove, hsound, hopts, hkept, -⟩ := remove_spec h topic
    have hcall : store.call (.remove topic) = (.removed (some removed), store') := by
      simp [hremove, call]
    unfold event Shelf.step
    rw [hcall]
    exact ⟨hsound, hopts, hkept⟩
  | pruneExpired nowNs =>
    obtain ⟨removed, store', hprune, hsound, hopts, hkept⟩ := pruneExpired_spec h nowNs
    have hcall : store.call (.pruneExpired nowNs) = (.pruned (some removed), store') := by
      simp [hprune, call]
    unfold event Shelf.step
    rw [hcall]
    exact ⟨hsound, hopts, hkept⟩

lemma run_sound (options : Options) (calls : List Call) :
    (exec call { options := options } calls).Sound ∧
      (exec call { options := options } calls).options = options ∧
      (exec call { options := options } calls).retained =
        Shelf.after (trace call { options := options } calls) := by
  refine trace_induction call (fun _ _ => True)
    (fun events store => store.Sound ∧ store.options = options ∧
      store.retained = Shelf.after events)
    ⟨sound_empty options, rfl, rfl⟩ ?_ calls (fun _ _ => trivial)
  rintro events store input ⟨hsound, hoptions, hretained⟩ -
  obtain ⟨hsound', hoptions', hretained'⟩ := call_step hsound input
  refine ⟨hsound', hoptions'.trans hoptions, ?_⟩
  simp [hretained', hretained, Shelf.after]

end Store

end Netz.Mqtt.Retained
