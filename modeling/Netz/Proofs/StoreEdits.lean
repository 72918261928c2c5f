/-
Every call of the session store is a chain of edits.

A call on one session leaves the session's life alone: who it is, and when it ends.  Everything else
is one of seven edits of the store; an invariant of the store is proved once for each edit.
`Indexed` is what the two indexes mean: a client identifier and a route identifier lead to the slot
of the session that has them.  It holds of every reachable store, so the impossible branches of the
calls are never taken.
-/
import Mathlib.Logic.Relation
import Netz.Lib.Positions
import Netz.Mqtt.SessionSnapshot
import Netz.Proofs.SessionStore

namespace Netz.Mqtt

open Lib Reader List

/-! ### The life of a session -/

/-- Who a session is, and when it ends. -/
structure Session.Life where
  generation : Nat
  routeId : Nat
  clientId : Bytes
  connected : Bool
  expiryInterval : Nat
  expiresAtNs : Option Int

def Session.life (session : Session) : Session.Life where
  generation := session.generation
  routeId := session.routeId
  clientId := session.clientId
  connected := session.connected
  expiryInterval := session.expiryInterval
  expiresAtNs := session.expiresAtNs

namespace Session

lemma life_makeQueueRoom (session : Session) (maxQueued : Nat) :
    (session.makeQueueRoom maxQueued).life = session.life := by
  unfold makeQueueRoom compactQueue
  split
  · rfl
  · split <;> rfl

lemma life_advanceQueueHead (session : Session) :
    session.advanceQueueHead.life = session.life := by
  unfold advanceQueueHead
  split <;> rfl

lemma life_reservePacketIdLoop (attempts : Nat) (session : Session) :
    (reservePacketIdLoop attempts session).2.life = session.life := by
  induction attempts generalizing session with
  | zero => rfl
  | succ attempts ih =>
    unfold reservePacketIdLoop
    dsimp only
    split
    · exact ih _
    · rfl

lemma life_moveQueued (session : Session) (nowNs : Int) (index : Nat) (publish : OwnedPublish) :
    (session.moveQueued nowNs index publish).2.life = session.life := by
  unfold moveQueued
  dsimp only
  have hres := life_reservePacketIdLoop maxU16
    { session with
      queued := session.queued.set index none
      queuedCount := session.queuedCount - 1 }
  unfold reservePacketId
  split
  · rename_i found hfound
    rw [hfound] at hres
    exact hres
  rename_i packetId found hfound
  rw [hfound] at hres
  split
  · exact hres
  · exact hres

lemma life_drainLoop (nowNs : Int) (slots : Nat) (loop : DrainLoop) :
    (drainLoop nowNs slots loop).2.session.life = loop.session.life := by
  induction slots generalizing loop with
  | zero => rfl
  | succ slots ih =>
    unfold drainLoop
    split
    · rfl
    split
    · rfl
    · exact ih _
    rename_i publish _
    have hmove := life_moveQueued loop.session nowNs loop.queueIndex publish
    split
    · rename_i e moved hmoved
      rw [hmoved] at hmove
      exact hmove
    rename_i transmission moved hmoved
    rw [hmoved] at hmove
    exact (ih _).trans hmove

lemma life_drainQueue (session : Session) (nowNs : Int) (out : List Transmission)
    (available : Nat) : (session.drainQueue nowNs out available).2.life = session.life := by
  unfold drainQueue
  have hloop := life_drainLoop nowNs session.queued.length
    { session := session, out := out, available := available, queueIndex := session.queuedHead }
  split
  · rename_i e loop hdrain
    rw [hdrain] at hloop
    exact hloop
  rename_i loop hdrain
  rw [hdrain] at hloop
  exact (life_advanceQueueHead _).trans hloop

end Session

namespace Held

lemma life_pruneInflight (held : Held) (nowNs : Int) :
    (held.pruneInflight nowNs).session.life = held.session.life := by
  unfold pruneInflight
  generalize range held.session.inflight.length = indices
  induction indices generalizing held with
  | nil => rfl
  | cons index rest ih =>
    rw [foldl_cons, ih]
    unfold pruneSlot
    split
    · split <;> rfl
    · rfl

lemma life_pruneExpiredPublishes (held : Held) (nowNs : Int) :
    (held.pruneExpiredPublishes nowNs).session.life = held.session.life := by
  unfold pruneExpiredPublishes
  rw [life_pruneInflight]
  exact Session.life_advanceQueueHead _

lemma life_drainInto (held : Held) (maxInflight : Nat) (nowNs : Int)
    (receiveMaximum capacity : Nat) (memory : Bool) :
    (held.drainInto maxInflight nowNs receiveMaximum capacity memory).2.session.life =
      held.session.life := by
  have hpruned := held.life_pruneExpiredPublishes nowNs
  unfold drainInto
  dsimp only
  generalize held.pruneExpiredPublishes nowNs = pruned at hpruned ⊢
  split
  · exact hpruned
  split
  · exact hpruned
  split
  · exact hpruned
  split
  · exact hpruned
  · exact (Session.life_drainQueue _ _ _ _).trans hpruned

lemma life_retryUnsentPublish (held : Held) (packetId : Nat) :
    (held.retryUnsentPublish packetId).2.session.life = held.session.life := by
  unfold retryUnsentPublish
  dsimp only
  split
  · rfl
  split
  · split <;> rfl
  · rfl

lemma life_handleAck (held : Held) (packetType : PacketType) (packetId reasonCode : Nat) :
    (held.handleAck packetType packetId reasonCode).2.session.life = held.session.life := by
  unfold handleAck
  split
  · rfl
  split
  · unfold acknowledge
    split
    · split <;> rfl
    · split
      · split <;> rfl
      · rfl
    · split <;> rfl
    · rfl
  · rfl

lemma life_dropOversizedPublish (held : Held) (packetId : Nat) :
    (held.dropOversizedPublish packetId).2.session.life = held.session.life := by
  unfold dropOversizedPublish
  split
  · rfl
  split
  · split <;> rfl
  · rfl

lemma life_setSubscription (held : Held) (options : Options) (owned : OwnedSubscription)
    (memory : Memory) :
    (held.setSubscription options owned memory).2.session.life = held.session.life := by
  unfold setSubscription
  split
  · rfl
  split
  · rfl
  split
  · rfl
  split
  · rfl
  split
  · rfl
  · rfl

lemma life_removeSubscription (held : Held) (topicFilter : Bytes) :
    (held.removeSubscription topicFilter).2.session.life = held.session.life := by
  unfold removeSubscription
  split <;> rfl

lemma life_recordIncomingQos2 (held : Held) (options : Options) (packetId : Nat)
    (memory : Memory) :
    (held.recordIncomingQos2 options packetId memory).2.session.life = held.session.life := by
  unfold recordIncomingQos2
  split
  · rfl
  split
  · rfl
  split
  · rfl
  · rfl

lemma life_completeIncomingQos2 (held : Held) (packetId : Nat) :
    (held.completeIncomingQos2 packetId).2.session.life = held.session.life := by
  unfold completeIncomingQos2
  split <;> rfl

/-! ### Restored records -/

/-- A reader of records that keeps something true of what it has read so far. -/
theorem readRecords_keeps {σ : Type} {record : σ → Cursor σ} {P : σ → Prop}
    (hrecord : ∀ state input next rest, P state → record state input = .ok (next, rest) → P next)
    (count : Nat) : ∀ {state : σ} {input rest : Bytes} {last : σ}, P state →
      readRecords record count state input = .ok (last, rest) → P last := by
  induction count with
  | zero =>
    intro state input rest last hstate h
    cases h
    exact hstate
  | succ count ih =>
    intro state input rest last hstate h
    obtain ⟨next, mid, hnext, hlast⟩ := bind_ok_iff.mp h
    exact ih (hrecord state input next mid hstate hnext) hlast

variable {options : Options} {held next last : Held} {input rest : Bytes} {nowNs downtimeNs : Int}

lemma restoreSubscription_ok (h : held.restoreSubscription options input = .ok (next, rest)) :
    ∃ owned, next = (held.setSubscription options owned {}).2 := by
  obtain ⟨restored, mid, -, h⟩ := bind_ok_iff.mp h
  obtain ⟨u, mid', -, h⟩ := bind_ok_iff.mp h
  obtain ⟨b, mid'', -, h⟩ := bind_ok_iff.mp h
  cases h
  exact ⟨_, rfl⟩

lemma restoreQueued_ok
    (h : held.restoreQueued options nowNs downtimeNs input = .ok (next, rest)) :
    next = held ∨ ∃ publish, held.charge options publish = .ok () ∧
      next = { session := held.session.appendQueued publish
               totalBytes := held.totalBytes + publish.allocationBytes } := by
  obtain ⟨restored, mid, -, h⟩ := bind_ok_iff.mp h
  cases restored with
  | none =>
    cases h
    exact .inl rfl
  | some publish =>
    obtain ⟨u, mid', hcharge, h⟩ := bind_ok_iff.mp h
    cases h
    refine .inr ⟨publish, ?_, rfl⟩
    cases hfits : held.charge options publish with
    | ok u => rfl
    | error e =>
      rw [hfits] at hcharge
      cases hcharge

lemma restoreInflight_ok
    (h : held.restoreInflight options nowNs downtimeNs input = .ok (next, rest)) :
    next = held ∨ ∃ publish packetId state, held.charge options publish = .ok () ∧
      packetId ≠ 0 ∧ held.session.packetIndex.get packetId = none ∧
      next = held.addRestored publish packetId state := by
  obtain ⟨packetId, mid, -, h⟩ := bind_ok_iff.mp h
  obtain ⟨stateByte, mid', -, h⟩ := bind_ok_iff.mp h
  cases hstate : InflightState.fromInt? stateByte with
  | none =>
    rw [hstate] at h
    cases h
  | some state =>
    rw [hstate] at h
    obtain ⟨restored, mid'', -, h⟩ := bind_ok_iff.mp h
    cases restored with
    | none =>
      cases h
      exact .inl rfl
    | some publish =>
      obtain ⟨u, mid₃, hfresh, h⟩ := bind_ok_iff.mp h
      obtain ⟨u', mid₄, hcharge, h⟩ := bind_ok_iff.mp h
      cases h
      refine .inr ⟨publish, packetId, state, ?_, ?_, ?_, rfl⟩
      · cases hfits : held.charge options publish with
        | ok u => rfl
        | error e =>
          rw [hfits] at hcharge
          cases hcharge
      · rintro rfl
        cases hfresh
      cases hget : held.session.packetIndex.get packetId with
      | none => rfl
      | some index =>
        rw [hget, show (packetId == 0 || (some index).isSome) = true by simp] at hfresh
        cases hfresh

lemma restoreRecords_keeps {P : Held → Prop}
    (hsubscription : ∀ held owned, P held → P (held.setSubscription options owned {}).2)
    (hqueued : ∀ held publish, P held → held.charge options publish = .ok () →
      P { session := held.session.appendQueued publish
          totalBytes := held.totalBytes + publish.allocationBytes })
    (hinflight : ∀ held publish packetId state, P held → held.charge options publish = .ok () →
      packetId ≠ 0 → held.session.packetIndex.get packetId = none →
      P (held.addRestored publish packetId state)) (hheld : P held)
    (h : held.restoreRecords options nowNs downtimeNs input = .ok (last, rest)) : P last := by
  obtain ⟨count, mid, -, h⟩ := bind_ok_iff.mp h
  obtain ⟨u, mid₁, -, h⟩ := bind_ok_iff.mp h
  obtain ⟨subscribed, mid₂, hsubscribed, h⟩ := bind_ok_iff.mp h
  obtain ⟨count', mid₃, -, h⟩ := bind_ok_iff.mp h
  obtain ⟨u', mid₄, -, h⟩ := bind_ok_iff.mp h
  obtain ⟨queued, mid₅, hqueuedRead, h⟩ := bind_ok_iff.mp h
  obtain ⟨count'', mid₆, -, h⟩ := bind_ok_iff.mp h
  obtain ⟨u'', mid₇, -, h⟩ := bind_ok_iff.mp h
  have hsub : P subscribed := by
    refine readRecords_keeps (fun state input next rest hstate hnext => ?_) count hheld hsubscribed
    obtain ⟨owned, rfl⟩ := restoreSubscription_ok hnext
    exact hsubscription state owned hstate
  have hqueue : P queued := by
    refine readRecords_keeps (fun state input next rest hstate hnext => ?_) count' hsub hqueuedRead
    rcases restoreQueued_ok hnext with rfl | ⟨publish, hcharge, rfl⟩
    · exact hstate
    · exact hqueued state publish hstate hcharge
  refine readRecords_keeps (fun state input next rest hstate hnext => ?_) count'' hqueue h
  rcases restoreInflight_ok hnext with rfl | ⟨publish, packetId, found, hcharge, hzero, hnew, rfl⟩
  · exact hstate
  · exact hinflight state publish packetId found hstate hcharge hzero hnew

lemma life_restoreRecords
    (h : held.restoreRecords options nowNs downtimeNs input = .ok (last, rest)) :
    last.session.life = held.session.life := by
  refine restoreRecords_keeps (P := fun next => next.session.life = held.session.life)
    (fun next owned hnext => ?_) (fun next publish hnext _ => ?_)
    (fun next publish packetId state hnext _ _ _ => ?_) rfl h
  · exact (next.life_setSubscription options owned {}).trans hnext
  · exact hnext
  · exact hnext

end Held

end Netz.Mqtt

namespace Netz.Mqtt

open Lib

namespace Store

/-! ### The indexes -/

/-- The client identifier in a slot. -/
def clientKeys (slot : Option Session) : List Bytes := slot.toList.map (·.clientId)

/-- The route identifier in a slot. -/
def routeKeys (slot : Option Session) : List Nat := slot.toList.map (·.routeId)

/-- **The indexes lead to the slots**, and to nothing else. -/
structure Indexed (store : Store) : Prop where
  clients : Positions clientKeys store.sessions store.clientIndex
  routes : Positions routeKeys store.sessions store.routeIndex

variable {session session' : Session} {store store' : Store} {index : Nat} {clientId : Bytes}
  {header : RestoredHeader}

lemma clientKeys_of_life (h : session'.life = session.life) :
    clientKeys (some session') = clientKeys (some session) := by
  have hclient : session'.clientId = session.clientId := congrArg Session.Life.clientId h
  unfold clientKeys
  simp [hclient]

lemma routeKeys_of_life (h : session'.life = session.life) :
    routeKeys (some session') = routeKeys (some session) := by
  have hroute : session'.routeId = session.routeId := congrArg Session.Life.routeId h
  unfold routeKeys
  simp [hroute]

lemma sessionAt_iff :
    store.sessionAt index = some session ↔ store.sessions[index]? = some (some session) := by
  constructor
  · exact sessionAt_eq_some
  · intro h
    simp [h, sessionAt]

lemma Indexed.sessionOf (h : store.Indexed) (hget : store.clientIndex.get clientId = some index) :
    ∃ session, store.sessionAt index = some session ∧ session.clientId = clientId := by
  obtain ⟨session, hslot, hkey⟩ := (h.clients.slots_iff clientId index).mp hget
  exact ⟨session, sessionAt_iff.mpr hslot, hkey⟩

/-! ### Edits -/

/-- A single change of the store. -/
inductive Edit (store : Store) : Store → Prop
  | put {index : Nat} {session : Session} {held : Held}
      (hslot : store.sessions[index]? = some (some session))
      (hlife : held.session.life = session.life) : Edit store (store.putBack index held)
  | resume {index : Nat} {session : Session} (expiryInterval : Nat)
      (hslot : store.sessions[index]? = some (some session)) :
      Edit store (store.resume index session expiryInterval).2
  | offline {index : Nat} {session : Session} (expiryInterval : Nat) (nowNs : Int)
      (hslot : store.sessions[index]? = some (some session)) :
      Edit store
        (store.goOffline index { session with expiryInterval := expiryInterval } nowNs)
  | remove {index : Nat} {session : Session}
      (hslot : store.sessions[index]? = some (some session)) :
      Edit store (store.removeAt index session)
  | create {clientId : Bytes} {expiryInterval : Nat} {replaced : Bool} {memory : Memory}
      {result : OpenResult} {store' : Store} (hnew : store.clientIndex.get clientId = none)
      (h : store.create clientId expiryInterval replaced memory = (.ok result, store')) :
      Edit store store'
  | restore {header : RestoredHeader} {nextPacketId : Nat} {nowNs : Int} {held : Held}
      (hclient : store.clientIndex.get header.clientId = none)
      (hroute : store.routeIndex.get header.routeId = none)
      (hlife : held.session.life = (store.restoredSession header nextPacketId nowNs).life) :
      Edit store (store.placeRestored header held)
  | counters (header : RestoredHeader) : Edit store (store.countersBehind header)
  | regate (next : Option Int)
      (hnext : ∀ session ∈ store.sessions.reduceOption, session.connected = false →
        ∀ deadline, session.expiresAtNs = some deadline → ∃ due, next = some due ∧ due ≤ deadline) :
      Edit store { store with nextExpiryNs := next }

abbrev Edits : Store → Store → Prop := Relation.ReflTransGen Edit

lemma create_ok {expiryInterval : Nat} {replaced : Bool} {memory : Memory} {result : OpenResult}
    (h : store.create clientId expiryInterval replaced memory = (.ok result, store')) :
    ∃ routeId nextRouteId,
      store.allocateRouteId = some (routeId, nextRouteId) ∧
      store' = { store with
        sessions := insertSlot
          { generation := store.nextGeneration, routeId := routeId, clientId := clientId,
            connected := true, expiryInterval := expiryInterval, expiresAtNs := none,
            allocationBytes := clientId.length } store.sessions
        clientIndex := store.clientIndex.put clientId (vacantSlot store.sessions)
        routeIndex := store.routeIndex.put routeId (vacantSlot store.sessions)
        sessionCount := store.sessionCount + 1
        totalBytes := store.totalBytes + clientId.length
        nextGeneration := followingGeneration store.nextGeneration
        nextRouteId := nextRouteId } := by
  unfold create at h
  obtain ⟨-, h⟩ := of_guard h nofun
  obtain ⟨-, h⟩ := of_guard h nofun
  obtain ⟨-, h⟩ := of_guard h nofun
  obtain ⟨-, h⟩ := of_guard h nofun
  cases hroute : store.allocateRouteId with
  | none =>
    rw [hroute] at h
    cases h
  | some found =>
    obtain ⟨routeId, nextRouteId⟩ := found
    rw [hroute] at h
    cases h
    exact ⟨routeId, nextRouteId, rfl, rfl⟩

lemma nextRouteIdLoop_fresh {live : Table Nat Nat} {attempts routeId found next : Nat}
    (h : nextRouteIdLoop live attempts routeId = some (found, next)) : live.get found = none := by
  induction attempts generalizing routeId with
  | zero => cases h
  | succ attempts ih =>
    unfold nextRouteIdLoop at h
    split at h
    · exact ih h
    rename_i hfree
    cases h
    simpa using hfree

/-- **Every edit keeps the indexes.** -/
theorem Edit.indexed (h : Edit store store') (hidx : store.Indexed) : store'.Indexed := by
  cases h with
  | put hslot hlife =>
    exact ⟨hidx.clients.replace hslot (clientKeys_of_life hlife),
      hidx.routes.replace hslot (routeKeys_of_life hlife)⟩
  | resume expiryInterval hslot =>
    exact ⟨hidx.clients.replace hslot rfl, hidx.routes.replace hslot rfl⟩
  | offline expiryInterval nowNs hslot =>
    exact ⟨hidx.clients.replace hslot rfl, hidx.routes.replace hslot rfl⟩
  | @remove index session hslot =>
    refine ⟨hidx.clients.removeKey hslot (List.mem_singleton_self session.clientId)
      (fun clientId => ?_), hidx.routes.removeKey hslot
      (List.mem_singleton_self session.routeId) (fun routeId => ?_)⟩
    · simp [clientKeys]
    · simp [routeKeys]
  | create hnew h =>
    obtain ⟨routeId, nextRouteId, hroute, rfl⟩ := create_ok h
    exact ⟨hidx.clients.insertSlot rfl rfl hnew,
      hidx.routes.insertSlot rfl rfl (nextRouteIdLoop_fresh hroute)⟩
  | @restore header nextPacketId nowNs held hclient hroute hlife =>
    exact ⟨hidx.clients.insertSlot rfl (clientKeys_of_life hlife) hclient,
      hidx.routes.insertSlot rfl (routeKeys_of_life hlife) hroute⟩
  | counters | regate => exact ⟨hidx.clients, hidx.routes⟩

lemma Edits.indexed (h : Edits store store') (hidx : store.Indexed) : store'.Indexed := by
  induction h with
  | refl => exact hidx
  | tail _ hedit ih => exact hedit.indexed ih

/-! ### Calls on one session -/

lemma onSession_edits {α : Type} {handle : Handle} {call : Held → Except Error α × Held}
    (hlife : ∀ held, (call held).2.session.life = held.session.life) :
    Edits store (store.onSession handle call).2 := by
  unfold onSession
  cases hget : store.getSession handle with
  | none => exact .refl
  | some session => exact .single (.put (getSession_eq_some hget) (hlife _))

lemma enqueuePublish_edits (store : Store) (handle : Handle) (topic payload : Bytes) (qos : QoS)
    (retain : Bool) (properties : List Property) (nowNs : Int) (memory : Memory) :
    Edits store
      (store.enqueuePublish handle topic payload qos retain properties nowNs memory).2 := by
  unfold enqueuePublish
  split
  · exact .refl
  cases hget : store.getSession handle with
  | none => exact .refl
  | some session =>
    have hslot := getSession_eq_some hget
    dsimp only
    split
    · exact .refl
    split
    · exact .refl
    split
    · exact .refl
    split
    · exact .refl
    unfold enqueueOwned
    split
    · exact .refl
    split
    · exact .single (.put hslot (session.life_makeQueueRoom _))
    · exact .single (.put hslot (session.life_makeQueueRoom _))

lemma disconnect_edits (store : Store) (handle : Handle) (expiryOverride : Option Nat)
    (nowNs : Int) : Edits store (store.disconnect handle expiryOverride nowNs).2 := by
  unfold disconnect
  cases hget : store.getSession handle with
  | none => exact .refl
  | some session =>
    have hslot := getSession_eq_some hget
    dsimp only
    split
    · exact .refl
    split
    · exact .single (.remove hslot)
    · exact .single (.offline _ nowNs hslot)

/-! ### Opening -/

lemma dropExpired_edits {nowNs : Int} (h : store.dropExpired clientId nowNs = some store') :
    Edits store store' := by
  unfold dropExpired at h
  split at h
  · cases h
    exact .refl
  split at h
  · cases h
  rename_i session hses
  cases h
  split
  · exact .single (.remove (sessionAt_eq_some hses))
  · exact .refl

lemma create_edits (expiryInterval : Nat) (replaced : Bool) (memory : Memory)
    (hnew : store.clientIndex.get clientId = none) :
    Edits store (store.create clientId expiryInterval replaced memory).2 := by
  rcases hcreate : store.create clientId expiryInterval replaced memory with ⟨e | result, store'⟩
  · have hsame : store' = store := by
      unfold create at hcreate
      repeat' split at hcreate
      all_goals cases hcreate
      all_goals rfl
    rw [hsame]
  · exact .single (.create hnew hcreate)

lemma openLive_edits (hidx : store.Indexed) (clientId : Bytes) (cleanStart : Bool)
    (expiryInterval : Nat) (memory : Memory) :
    Edits store (store.openLive clientId cleanStart expiryInterval memory).2 := by
  unfold openLive
  cases hclient : store.clientIndex.get clientId with
  | none => exact create_edits expiryInterval false memory hclient
  | some index =>
    obtain ⟨session, hses, hid⟩ := hidx.sessionOf hclient
    dsimp only
    rw [hses]
    dsimp only
    have hslot := sessionAt_eq_some hses
    split
    · refine .trans (.single (.remove hslot)) (create_edits expiryInterval _ memory ?_)
      show (store.clientIndex.remove session.clientId).get clientId = none
      rw [Table.get_remove, hid, if_pos rfl]
    · exact .single (.resume expiryInterval hslot)

lemma openSession_edits (hidx : store.Indexed) (clientId : Bytes) (cleanStart : Bool)
    (expiryInterval : Nat) (nowNs : Int) (memory : Memory) :
    Edits store (store.openSession clientId cleanStart expiryInterval nowNs memory).2 := by
  unfold openSession
  split
  · exact .refl
  split
  · exact .refl
  rename_i dropped hdropped
  have hdrop := dropExpired_edits hdropped
  exact hdrop.trans (openLive_edits (hdrop.indexed hidx) _ _ _ _)

/-! ### Removing -/

lemma discard_edits (store : Store) (clientId : Bytes) :
    Edits store (store.discard clientId).2 := by
  unfold discard
  cases hclient : store.clientIndex.get clientId with
  | none => exact .refl
  | some index =>
    dsimp only
    cases hses : store.sessionAt index with
    | none => exact .refl
    | some session => exact .single (.remove (sessionAt_eq_some hses))

lemma discardHandle_edits (store : Store) (handle : Handle) :
    Edits store (store.discardHandle handle).2 := by
  unfold discardHandle
  cases hget : store.getSession handle with
  | none => exact .refl
  | some session => exact .single (.remove (getSession_eq_some hget))

lemma find_edits (store : Store) (clientId : Bytes) (nowNs : Int) :
    Edits store (store.find clientId nowNs).2 := by
  unfold find
  cases hclient : store.clientIndex.get clientId with
  | none => exact .refl
  | some index =>
    dsimp only
    cases hses : store.sessionAt index with
    | none => exact .refl
    | some session =>
      dsimp only
      split
      · exact .single (.remove (sessionAt_eq_some hses))
      · exact .refl

/-! ### Restoring -/

lemma readHeader_new {downtimeNs : Int} {input rest : Bytes}
    (h : store.readHeader downtimeNs input = .ok (header, rest)) :
    store.clientIndex.get header.clientId = none ∧ store.routeIndex.get header.routeId = none := by
  obtain ⟨clientId, mid, -, h⟩ := Reader.bind_ok_iff.mp h
  obtain ⟨u, mid₁, hclient, h⟩ := Reader.bind_ok_iff.mp h
  obtain ⟨routeId, mid₂, -, h⟩ := Reader.bind_ok_iff.mp h
  obtain ⟨u₁, mid₃, hroute, h⟩ := Reader.bind_ok_iff.mp h
  obtain ⟨expiryInterval, mid₄, -, h⟩ := Reader.bind_ok_iff.mp h
  obtain ⟨u₂, mid₅, -, h⟩ := Reader.bind_ok_iff.mp h
  obtain ⟨wasConnected, mid₆, -, h⟩ := Reader.bind_ok_iff.mp h
  obtain ⟨saved, mid₇, -, h⟩ := Reader.bind_ok_iff.mp h
  obtain ⟨u₃, mid₈, -, h⟩ := Reader.bind_ok_iff.mp h
  cases h
  constructor
  · cases hget : store.clientIndex.get clientId with
    | none => rfl
    | some index =>
      rw [hget] at hclient
      cases hclient
  cases hget : store.routeIndex.get routeId with
  | none => rfl
  | some index =>
    rw [hget, Option.isSome_some, Bool.or_true] at hroute
    cases hroute

lemma restoreLive_edits (input : Bytes) (nowNs downtimeNs : Int) (memory : RestoreMemory)
    (hclient : store.clientIndex.get header.clientId = none)
    (hroute : store.routeIndex.get header.routeId = none) :
    Edits store (store.restoreLive header input nowNs downtimeNs memory).2 := by
  unfold restoreLive
  split
  · exact .refl
  split
  · exact .refl
  split
  · exact .refl
  split
  · exact .refl
  split
  · exact .refl
  split
  · exact .refl
  dsimp only
  split
  · exact .single (.counters header)
  rename_i restored rest hread
  split
  · exact .single (.counters header)
  · exact .single (.restore hclient hroute (Held.life_restoreRecords hread))

lemma restoreSession_edits (store : Store) (input : Bytes) (nowNs downtimeNs : Int)
    (memory : RestoreMemory) :
    Edits store (store.restoreSession input nowNs downtimeNs memory).2 := by
  unfold restoreSession
  split
  · exact .refl
  rename_i header rest hhdr
  obtain ⟨hclient, hroute⟩ := readHeader_new hhdr
  split
  · split
    · exact .refl
    · exact .refl
  · exact restoreLive_edits rest nowNs downtimeNs memory hclient hroute

lemma restoreSessions_edits (nowNs downtimeNs : Int) (memory : Nat → RestoreMemory)
    (count : Nat) (store : Store) (input : Bytes) :
    Edits store (store.restoreSessions nowNs downtimeNs memory count input).2 := by
  induction count generalizing store input with
  | zero => exact .refl
  | succ count ih =>
    have hfirst := restoreSession_edits store input nowNs downtimeNs (memory count)
    unfold restoreSessions
    split
    · rename_i e store' hses
      rw [hses] at hfirst
      exact hfirst
    rename_i rest store' hses
    rw [hses] at hfirst
    exact hfirst.trans (ih store' rest)

lemma restoreSnapshot_edits (store : Store) (input : Bytes) (nowNs downtimeNs : Int)
    (memory : Nat → RestoreMemory) :
    Edits store (store.restoreSnapshot input nowNs downtimeNs memory).2 := by
  unfold restoreSnapshot
  split
  · exact .refl
  split
  · exact .refl
  · exact restoreSessions_edits nowNs downtimeNs memory _ _ _

end Store

end Netz.Mqtt
