/-
What a call of the session store does to a session, and what its reply tells.

`Ledger` is what the calls and their replies say: the messages that were queued, the PUBLISH packets
that drains returned, and what the acknowledgements and the clock have made of them.

`step_follows` says once what a call can do to a session: leave it, start a new one, or change
it in one of eight ways, and what the ledger of its slot makes of the reply.  Each of these keeps
a session in order, so every session of every reachable store is.
-/
import Netz.Proofs.SessionDelivery

namespace Netz.Mqtt

open Lib Option

/-! ### What the replies tell -/

/-- The expiry interval of the message has gone by. -/
def OwnedPublish.lapsed (publish : OwnedPublish) (nowNs : Int) : Bool :=
  publish.expiryInterval.any fun interval : Nat =>
    decide ((interval : Int) * nsPerS ≤ max (nowNs - publish.storedAtNs) 0)

namespace Session

/-- The messages that a drain finds expired: all but those whose PUBREL is under way. -/
def lapsing (session : Session) (nowNs : Int) : List OwnedPublish :=
  session.queued.reduceOption.filter (·.lapsed nowNs) ++
    (session.inflight.reduceOption.filter fun inflight =>
      inflight.state != .awaitPubcomp && inflight.publish.lapsed nowNs).map (·.publish)

def inflightUnder (session : Session) (packetId : Nat) : List OwnedPublish :=
  ((session.inflight.reduceOption.find? (·.packetId == packetId)).map (·.publish)).toList

end Session

/-- What the calls on one session and their replies say of its messages, oldest first. -/
structure Ledger where
  /-- The messages that were answered with `queued`. -/
  accepted : List OwnedPublish := []
  /-- The PUBLISH packets that drains returned for a message the first time. -/
  departed : List PublishTransmission := []
  finished : List (OwnedPublish × Fate) := []
  /-- The serials of the PUBLISH packets that drains returned again, since the session was last
  connected or disconnected. -/
  resent : List Nat := []

namespace Ledger

def accept (l : Ledger) (publish : Except Error OwnedPublish) : Ledger :=
  { l with accepted := l.accepted ++ publish.toOption.toList }

def transmit (l : Ledger) : Transmission → Ledger
  | .publish packet =>
    if packet.serial ∈ l.departed.map (·.serial) then
      { l with resent := l.resent ++ [packet.serial] }
    else { l with departed := l.departed ++ [packet] }
  | .pubrel _ => l

def finish (l : Ledger) (gone : List OwnedPublish) (fate : Fate) : Ledger :=
  { l with finished := l.finished ++ gone.map (·, fate) }

/-- A drain that finds its session drops what has expired, whatever else comes of it. -/
def drain (l : Ledger) (lapsing : List OwnedPublish) : Except Error (List Transmission) → Ledger
  | .ok out => out.foldl transmit (l.finish lapsing .expired)
  | .error .invalidProperty | .error .sessionNotFound => l
  | .error _ => l.finish lapsing .expired

/-- A call on the session of the ledger, which was `session` before. -/
def update (l : Ledger) (session : Option Session) : Store.Op → Store.Reply → Ledger
  | .openSession _ _ _ _ _, .opened (.ok result) =>
    if result.sessionPresent then { l with resent := [] } else {}
  | .disconnect _ _ _, .disconnected (.ok _) => { l with resent := [] }
  | .enqueuePublish _ topic payload qos retain properties nowNs _, .enqueued (.ok .queued) =>
    l.accept (clonePublish l.accepted.length topic payload qos retain properties nowNs)
  | .drainInto _ nowNs _ _ _, .drained result =>
    l.drain (session.elim [] fun session => session.lapsing nowNs) result
  | .handleAck _ packetType packetId _, .acknowledged (.ok .completed) =>
    l.finish (session.elim [] fun session => session.inflightUnder packetId)
      (if packetType = .pubrec then .refused else .acknowledged)
  | .dropOversizedPublish _ packetId, .dropped (.ok .dropped) =>
    l.finish (session.elim [] fun session => session.inflightUnder packetId) .oversized
  | _, _ => l

/-- The call names the session in this slot: by its handle, or by the handle it answers. -/
def concerns (index : Nat) : Store.Op → Store.Reply → Bool
  | .openSession _ _ _ _ _, .opened (.ok result) => result.handle.index == index
  | .openSession _ _ _ _ _, _ => false
  | .disconnect handle _ _, _ | .enqueuePublish handle _ _ _ _ _ _ _, _
  | .drainInto handle _ _ _ _, _ | .retryUnsentPublish handle _, _ | .handleAck handle _ _ _, _
  | .dropOversizedPublish handle _, _ => handle.index == index

def observe (store : Store) (index : Nat) (l : Ledger) (op : Store.Op) (reply : Store.Reply) :
    Ledger :=
  if concerns index op reply then l.update store.sessions[index]?.join op reply else l

end Ledger

/-- The ledger of the slot after a run. -/
def ledger (index : Nat) (events : List (Event Store Store.Op Store.Reply)) : Ledger :=
  events.foldl (fun l e => l.observe e.pre index e.input e.output) {}

namespace Store

/-! ### What a call does to a session -/

/-- `session'` is what a call makes of `session` when it answers `reply`. -/
inductive Changed (store : Store) : Op → Reply → Session → Session → Prop where
  | resumed {clientId cleanStart interval nowNs memory session} {result : OpenResult}
      (hpresent : result.sessionPresent = true) (generation expiryInterval : Nat) :
      Changed store (.openSession clientId cleanStart interval nowNs memory)
        (.opened (.ok result)) session
        { session.markInflight with
          generation := generation
          connected := true
          expiryInterval := expiryInterval
          expiresAtNs := none }
  | offline {handle override nowNs session} (expiryInterval : Nat) (deadline : Option Int) :
      Changed store (.disconnect handle override nowNs) (.disconnected (.ok ())) session
        { session.markInflight with
          expiryInterval := expiryInterval
          connected := false
          expiresAtNs := deadline }
  | roomMade {handle topic payload qos retain properties nowNs memory session}
      (maxQueued : Nat) (e : Error) :
      Changed store (.enqueuePublish handle topic payload qos retain properties nowNs memory)
        (.enqueued (.error e)) session (session.makeQueueRoom maxQueued)
  | enqueued {handle topic payload qos retain properties nowNs memory session}
      (maxQueued : Nat) {publish : OwnedPublish}
      (hclone : clonePublish session.history.accepted.length topic payload qos retain properties
        nowNs = .ok publish)
      (hqos : qos ≠ .atMostOnce) :
      Changed store (.enqueuePublish handle topic payload qos retain properties nowNs memory)
        (.enqueued (.ok .queued)) session ((session.makeQueueRoom maxQueued).appendQueued publish)
  | drained {handle nowNs receiveMaximum capacity memory session}
      (hsession : store.getSession handle = some session) (totalBytes : Nat) :
      Changed store (.drainInto handle nowNs receiveMaximum capacity memory)
        (.drained (Held.drainInto ⟨session, totalBytes⟩ store.options.maxInflightPerSession nowNs
          receiveMaximum capacity memory.tables).1) session
        (Held.drainInto ⟨session, totalBytes⟩ store.options.maxInflightPerSession nowNs
          receiveMaximum capacity memory.tables).2.session
  | retried {handle packetId session} (totalBytes : Nat) :
      Changed store (.retryUnsentPublish handle packetId)
        (.retried (Held.retryUnsentPublish ⟨session, totalBytes⟩ packetId).1) session
        (Held.retryUnsentPublish ⟨session, totalBytes⟩ packetId).2.session
  | acknowledged {handle packetType packetId reasonCode session} (totalBytes : Nat) :
      Changed store (.handleAck handle packetType packetId reasonCode)
        (.acknowledged (Held.handleAck ⟨session, totalBytes⟩ packetType packetId reasonCode).1)
        session (Held.handleAck ⟨session, totalBytes⟩ packetType packetId reasonCode).2.session
  | dropped {handle packetId session} (totalBytes : Nat) :
      Changed store (.dropOversizedPublish handle packetId)
        (.dropped (Held.dropOversizedPublish ⟨session, totalBytes⟩ packetId).1) session
        (Held.dropOversizedPublish ⟨session, totalBytes⟩ packetId).2.session

/-- `session` has just been created. -/
def Started (session : Session) : Prop :=
  ∃ generation routeId clientId expiryInterval allocationBytes, session =
    { generation := generation, routeId := routeId, clientId := clientId, connected := true,
      expiryInterval := expiryInterval, expiresAtNs := none, allocationBytes := allocationBytes }

/-- Every session of `store'` was there in `store`, is new, or is a change of one, and its ledger
has the reply accordingly. -/
def Follows (store : Store) (op : Op) (reply : Reply) (store' : Store) : Prop :=
  ∀ (index : Nat) (session' : Session), store'.sessions[index]? = some (some session') →
    (store.sessions[index]? = some (some session') ∧ ∀ l : Ledger, l.observe store index op reply = l) ∨
      (Started session' ∧ ∀ l : Ledger, l.observe store index op reply = {}) ∨
      ∃ session, store.sessions[index]? = some (some session) ∧
        Changed store op reply session session' ∧
        ∀ l : Ledger, l.observe store index op reply = l.update (some session) op reply

/-- A call that changes nothing says nothing. -/
theorem Follows.refl (store : Store) {op : Op} {reply : Reply}
    (hsilent : ∀ (l : Ledger) session, l.update session op reply = l) :
    Follows store op reply store := by
  refine fun index _ h => .inl ⟨h, fun l => ?_⟩
  unfold Ledger.observe
  rw [hsilent, ite_self]

variable {store : Store} {index : Nat} {session session' : Session} {handle : Handle} {op : Op}
  {reply : Reply}
  {topic payload : Bytes} {qos : QoS} {properties : List Property}

lemma sessionAt_eq_some (h : store.sessionAt index = some session) :
    store.sessions[index]? = some (some session) := by
  unfold sessionAt at h
  cases hslot : store.sessions[index]? with
  | none => simp [hslot] at h
  | some slot => simpa [hslot] using h

lemma getSession_eq_some (h : store.getSession handle = some session) :
    store.sessions[handle.index]? = some (some session) := by
  unfold getSession at h
  exact sessionAt_eq_some (eq_some_of_filter_eq_some h)

lemma Follows.set (hslot : store.sessions[index]? = some (some session))
    (hchanged : Changed store op reply session session') {store' : Store}
    (hsessions : store'.sessions = store.sessions.set index (some session'))
    (hindex : ∀ i, Ledger.concerns i op reply = (index == i)) :
    Follows store op reply store' := by
  intro i found hfound
  have hobserve : ∀ l : Ledger, l.observe store i op reply =
      if index = i then l.update store.sessions[i]?.join op reply else l := by
    intro l
    simp only [Ledger.observe, hindex, beq_iff_eq]
  rw [hsessions, List.getElem?_set] at hfound
  by_cases hi : index = i
  · subst hi
    have hlt := lt_of_getElem? hslot
    rw [if_pos rfl, if_pos hlt, some.injEq, some.injEq] at hfound
    subst hfound
    exact .inr (.inr ⟨session, hslot, hchanged, fun l => by rw [hobserve, if_pos rfl, hslot]; rfl⟩)
  · rw [if_neg hi] at hfound
    exact .inl ⟨hfound, fun l => by rw [hobserve, if_neg hi]⟩

lemma Follows.onSession {α : Type} {call : Held → Except Error α × Held}
    (answer : Except Error α → Reply)
    (hindex : ∀ i result, Ledger.concerns i op (answer result) = (handle.index == i))
    (hmissing : ∀ (l : Ledger) session, l.update session op (answer (.error .sessionNotFound)) = l)
    (hchanged : ∀ session, store.getSession handle = some session →
      Changed store op (answer (call ⟨session, store.totalBytes⟩).1) session
        (call ⟨session, store.totalBytes⟩).2.session) :
    Follows store op (answer (store.onSession handle call).1) (store.onSession handle call).2 := by
  unfold Store.onSession
  split
  · exact Follows.refl store hmissing
  · next session hses =>
      exact Follows.set (getSession_eq_some hses) (hchanged session hses) rfl (hindex · _)

/-! ### Opening -/

lemma removeAt_sessions {i : Nat} {gone : Session}
    (h : (store.removeAt i gone).sessions[index]? = some (some session)) :
    i ≠ index ∧ store.sessions[index]? = some (some session) := by
  simp only [removeAt, List.getElem?_set] at h
  by_cases hi : i = index
  · simp [hi] at h
  · rw [if_neg hi] at h
    exact ⟨hi, h⟩

/-- A creation fails and changes nothing, or puts a new session into the first vacant slot. -/
theorem create_cases (store : Store) (clientId : Bytes) (expiryInterval : Nat) (replaced : Bool)
    (memory : Memory) :
    (∃ e, store.create clientId expiryInterval replaced memory = (.error e, store)) ∨
      ∃ result session store',
        store.create clientId expiryInterval replaced memory = (.ok result, store') ∧
        result.handle.index = vacantSlot store.sessions ∧ result.sessionPresent = false ∧
        Started session ∧ store'.sessions = insertSlot session store.sessions := by
  unfold create
  split
  · exact .inl ⟨_, rfl⟩
  split
  · exact .inl ⟨_, rfl⟩
  split
  · exact .inl ⟨_, rfl⟩
  split
  · exact .inl ⟨_, rfl⟩
  split
  · exact .inl ⟨_, rfl⟩
  · exact .inr ⟨_, _, _, rfl, rfl, rfl, ⟨_, _, _, _, _, rfl⟩, rfl⟩

lemma Follows.create (clientId : Bytes) (cleanStart : Bool) (interval expiryInterval : Nat)
    (nowNs : Int) (replaced : Bool) (memory : Memory) :
    Follows store (.openSession clientId cleanStart interval nowNs memory)
      (.opened (store.create clientId expiryInterval replaced memory).1)
      (store.create clientId expiryInterval replaced memory).2 := by
  rcases create_cases store clientId expiryInterval replaced memory with ⟨e, hcall⟩ |
    ⟨result, new, store', hcall, hindex, hpresent, hstarted, hsessions⟩
  · rw [hcall]
    exact Follows.refl store fun _ _ => rfl
  rw [hcall]
  intro index session' h
  dsimp only at h
  rw [hsessions, getElem?_insertSlot] at h
  split at h
  · next hhere =>
      rw [some.injEq, some.injEq] at h
      subst h
      refine .inr (.inl ⟨hstarted, fun l => ?_⟩)
      simp [Ledger.observe, Ledger.concerns, Ledger.update, hindex, hpresent, hhere]
  · next hother =>
      refine .inl ⟨h, fun l => ?_⟩
      simp [Ledger.observe, Ledger.concerns, hindex, Ne.symm hother]

lemma observe_openSession (live store : Store) (index : Nat) (l : Ledger) (clientId : Bytes)
    (cleanStart : Bool) (expiryInterval : Nat) (nowNs : Int) (memory : Memory) (reply : Reply) :
    l.observe store index (.openSession clientId cleanStart expiryInterval nowNs memory) reply =
      l.observe live index (.openSession clientId cleanStart expiryInterval nowNs memory) reply := by
  unfold Ledger.observe
  cases reply with
  | opened result => cases result <;> rfl
  | _ => rfl

/-- What is left when sessions are removed first was there before. -/
theorem Follows.of_live {live store' : Store} {clientId : Bytes} {cleanStart : Bool}
    {expiryInterval : Nat} {nowNs : Int} {memory : Memory}
    (hsub : ∀ (index : Nat) (session : Session), live.sessions[index]? = some (some session) →
      store.sessions[index]? = some (some session))
    (h : Follows live (.openSession clientId cleanStart expiryInterval nowNs memory) reply store') :
    Follows store (.openSession clientId cleanStart expiryInterval nowNs memory) reply store' := by
  intro index session' hses
  have hsame := fun l => observe_openSession live store index l clientId cleanStart expiryInterval
    nowNs memory reply
  simp only [hsame]
  rcases h index session' hses with ⟨hold, hsilent⟩ | hnew | ⟨before, hpre, hchanged, hobserve⟩
  · exact .inl ⟨hsub _ _ hold, hsilent⟩
  · exact .inr (.inl hnew)
  cases hchanged with
  | resumed hpresent generation interval =>
    exact .inr (.inr ⟨before, hsub _ _ hpre, .resumed hpresent generation interval, hobserve⟩)

lemma Follows.openLive (clientId : Bytes) (cleanStart : Bool) (expiryInterval : Nat)
    (memory : Memory) (nowNs : Int) :
    Follows store (.openSession clientId cleanStart expiryInterval nowNs memory)
      (.opened (store.openLive clientId cleanStart expiryInterval memory).1)
      (store.openLive clientId cleanStart expiryInterval memory).2 := by
  unfold Store.openLive
  split
  · exact Follows.create clientId cleanStart expiryInterval expiryInterval nowNs false memory
  split
  · exact Follows.refl store fun _ _ => rfl
  next i _ session hat =>
    split
    · exact Follows.of_live (fun _ _ h => (removeAt_sessions h).2)
        (Follows.create clientId cleanStart expiryInterval expiryInterval nowNs _ memory)
    · exact Follows.set (sessionAt_eq_some hat) (.resumed rfl _ _) rfl fun _ => rfl

lemma Follows.openSession (store : Store) (clientId : Bytes) (cleanStart : Bool)
    (expiryInterval : Nat) (nowNs : Int) (memory : Memory) :
    Follows store (.openSession clientId cleanStart expiryInterval nowNs memory)
      (.opened (store.openSession clientId cleanStart expiryInterval nowNs memory).1)
      (store.openSession clientId cleanStart expiryInterval nowNs memory).2 := by
  unfold Store.openSession
  split
  · exact Follows.refl store fun _ _ => rfl
  cases hdrop : store.dropExpired clientId nowNs with
  | none => exact Follows.refl store fun _ _ => rfl
  | some live =>
    refine Follows.of_live (fun index session h => ?_)
      (Follows.openLive clientId cleanStart expiryInterval memory nowNs)
    unfold dropExpired at hdrop
    split at hdrop
    · rw [some.injEq] at hdrop
      rwa [hdrop]
    split at hdrop
    · cases hdrop
    rw [some.injEq] at hdrop
    subst hdrop
    split at h
    · exact (removeAt_sessions h).2
    · exact h

/-! ### The other calls -/

lemma Follows.disconnect (store : Store) (handle : Handle) (override : Option Nat) (nowNs : Int) :
    Follows store (.disconnect handle override nowNs)
      (.disconnected (store.disconnect handle override nowNs).1)
      (store.disconnect handle override nowNs).2 := by
  unfold Store.disconnect
  split
  · exact Follows.refl store fun _ _ => rfl
  next session hses =>
    simp only
    split
    · exact Follows.refl store fun _ _ => rfl
    split
    · intro index session h
      obtain ⟨hother, hold⟩ := removeAt_sessions h
      refine .inl ⟨hold, fun l => ?_⟩
      simp [Ledger.observe, Ledger.concerns, hother]
    · exact Follows.set (getSession_eq_some hses) (.offline _ _) rfl fun _ => rfl

lemma clonePublish_ok {serial : Nat} {retain : Bool} {nowNs : Int} {publish : OwnedPublish}
    (h : clonePublish serial topic payload qos retain properties nowNs = .ok publish) :
    publish.serial = serial ∧ publish.qos = qos := by
  unfold clonePublish at h
  split at h
  · cases h
  split at h
  · cases h
  split at h
  · cases h
  · cases h
    exact ⟨rfl, rfl⟩

lemma qos_of_valid {u : Unit} (h : validateQueuedPublish topic payload qos properties = .ok u) :
    qos ≠ .atMostOnce := by
  intro hc
  simp [validateQueuedPublish, hc] at h

lemma Follows.enqueuePublish (store : Store) (handle : Handle) (topic payload : Bytes)
    (qos : QoS) (retain : Bool) (properties : List Property) (nowNs : Int) (memory : Memory) :
    Follows store (.enqueuePublish handle topic payload qos retain properties nowNs memory)
      (.enqueued (store.enqueuePublish handle topic payload qos retain properties nowNs memory).1)
      (store.enqueuePublish handle topic payload qos retain properties nowNs memory).2 := by
  unfold Store.enqueuePublish
  split
  · exact Follows.refl store fun _ _ => rfl
  next hvalid =>
    split
    · exact Follows.refl store fun _ _ => rfl
    next session hses =>
      split
      · exact Follows.refl store fun _ _ => rfl
      split
      · exact Follows.refl store fun _ _ => rfl
      split
      · exact Follows.refl store fun _ _ => rfl
      split
      · exact Follows.refl store fun _ _ => rfl
      next publish hclone =>
        have hslot := getSession_eq_some hses
        unfold enqueueOwned
        split
        · exact Follows.refl store fun _ _ => rfl
        split
        · exact Follows.set hslot (.roomMade _ _) rfl fun _ => rfl
        · exact Follows.set hslot (.enqueued _ hclone (qos_of_valid hvalid)) rfl fun _ => rfl

/-- **What a call of the store can do.** -/
theorem step_follows (store : Store) (op : Op) :
    Follows store op (store.step op).1 (store.step op).2 := by
  cases op with
  | openSession clientId cleanStart expiryInterval nowNs memory =>
    exact Follows.openSession store clientId cleanStart expiryInterval nowNs memory
  | disconnect handle override nowNs => exact Follows.disconnect store handle override nowNs
  | enqueuePublish handle topic payload qos retain properties nowNs memory =>
    exact Follows.enqueuePublish store handle topic payload qos retain properties nowNs memory
  | drainInto handle nowNs receiveMaximum capacity memory =>
    simp only [step]
    unfold Store.drainInto
    split
    · exact Follows.refl store fun _ _ => rfl
    · exact Follows.onSession Reply.drained (fun _ _ => rfl) (fun _ _ => rfl)
        fun session hses => .drained hses _
  | retryUnsentPublish handle packetId =>
    exact Follows.onSession Reply.retried (fun _ _ => rfl) (fun _ _ => rfl)
      fun session _ => .retried _
  | handleAck handle packetType packetId reasonCode =>
    exact Follows.onSession Reply.acknowledged (fun _ _ => rfl) (fun _ _ => rfl)
      fun session _ => .acknowledged _
  | dropOversizedPublish handle packetId =>
    exact Follows.onSession Reply.dropped (fun _ _ => rfl) (fun _ _ => rfl)
      fun session _ => .dropped _

/-! ### Every session of every run -/

lemma Changed.inv (hchanged : Changed store op reply session session') (h : session.Inv) :
    session'.Inv := by
  cases hchanged with
  | resumed _ generation expiryInterval =>
    exact h.markInflight.requeue ⟨rfl, rfl, rfl, rfl, rfl⟩
      ⟨h.queue.head, h.queue.front, h.queue.count, h.queue.quality⟩ rfl
  | offline expiryInterval deadline =>
    exact h.markInflight.requeue ⟨rfl, rfl, rfl, rfl, rfl⟩
      ⟨h.queue.head, h.queue.front, h.queue.count, h.queue.quality⟩ rfl
  | roomMade maxQueued => exact h.makeRoom maxQueued
  | enqueued maxQueued hclone hqos =>
    obtain ⟨hserial, hquality⟩ := clonePublish_ok hclone
    refine (h.makeRoom maxQueued).append ?_ (by rw [hquality]; exact hqos)
    rw [(Session.SameWindow.makeRoom _ maxQueued).history]
    exact hserial
  | drained _ totalBytes => exact Session.Inv.drainInto h _ _ _ _ _
  | retried totalBytes => exact Session.Inv.retryUnsentPublish h _
  | acknowledged totalBytes => exact Session.Inv.handleAck h _ _ _
  | dropped totalBytes => exact Session.Inv.dropOversizedPublish h _

/-- Every session the store holds is in order. -/
def Sound (store : Store) : Prop :=
  ∀ (index : Nat) (session : Session), store.sessions[index]? = some (some session) → session.Inv

lemma step_sound (h : Sound store) (op : Op) : Sound (store.step op).2 := by
  intro index session' hses
  rcases step_follows store op index session' hses with ⟨hold, -⟩ | ⟨hnew, -⟩ |
    ⟨session, hold, hchanged, -⟩
  · exact h index session' hold
  · obtain ⟨generation, routeId, clientId, expiryInterval, bytes, rfl⟩ := hnew
    exact Session.inv_new generation routeId clientId expiryInterval bytes
  · exact hchanged.inv (h index session hold)

lemma exec_sound (options : Options) (ops : List Op) :
    Sound (exec step { options := options } ops) :=
  exec_induction step Sound (by intro index session h; simp at h)
    (fun _ op h => step_sound h op) ops

end Store

end Netz.Mqtt
