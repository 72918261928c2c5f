/-
Expiry sweeps of the session store, and runs of all its calls.

A sweep is a chain of removals.  With it every call is a chain of edits, and what every edit
keeps holds of every reachable store.
-/
import Netz.Proofs.StoreEdits

namespace Netz.Mqtt

open Lib List Option

namespace Store

/-! ### Expiry sweeps -/

lemma pruneLoop_edits (nowNs : Int) (indices : List Nat) (store : Store) :
    Edits store (store.pruneLoop nowNs indices).2 := by
  induction indices generalizing store with
  | nil => exact .refl
  | cons index rest ih =>
    unfold pruneLoop
    cases hses : store.sessionAt index with
    | none => exact ih store
    | some session =>
      dsimp only
      split
      · exact .trans (.single (.remove (sessionAt_eq_some hses))) (ih _)
      · exact ih store

lemma pruneIntoLoop_eq (nowNs : Int) (indices : List Nat) (store : Store) (next : Option Int) :
    (store.pruneIntoLoop nowNs next indices).1 = (store.pruneLoop nowNs indices).1 ∧
      (store.pruneIntoLoop nowNs next indices).2.2 = (store.pruneLoop nowNs indices).2 := by
  induction indices generalizing store next with
  | nil => exact ⟨rfl, rfl⟩
  | cons index rest ih =>
    unfold pruneIntoLoop pruneLoop
    cases hses : store.sessionAt index with
    | none => exact ih store next
    | some session =>
      dsimp only
      split
      · obtain ⟨hids, hstore⟩ := ih (store.removeAt index session) next
        exact ⟨congrArg _ hids, hstore⟩
      split
      · exact ih store _
      · exact ih store next

variable {store : Store} {index : Nat} {session : Session} {nowNs deadline : Int}
  {indices : List Nat} {next : Option Int}

lemma sessionAt_removeAt {other : Nat} (h : other ≠ index) :
    (store.removeAt index session).sessionAt other = store.sessionAt other := by
  unfold sessionAt removeAt
  rw [getElem?_set_ne (Ne.symm h)]

lemma getElem?_removeAt (store : Store) (index : Nat) (session : Session) (other : Nat) :
    (store.removeAt index session).sessions[other]? =
      if other = index then (store.sessions[other]?).map fun _ => none
      else store.sessions[other]? := by
  show (store.sessions.set index none)[other]? = _
  by_cases h : other = index
  · rw [if_pos h, h, getElem?_set_self']
    rfl
  · rw [if_neg h, getElem?_set_ne (Ne.symm h)]

/-- **A sweep empties the slots of expired sessions**, and no other. -/
theorem pruneLoop_sessions (hnodup : indices.Nodup) (store : Store) (other : Nat) :
    (store.pruneLoop nowNs indices).2.sessions[other]? = (store.sessions[other]?).map fun slot =>
        if other ∈ indices then slot.filter fun session => !isExpired session nowNs else slot := by
  induction indices generalizing store with
  | nil =>
    unfold pruneLoop
    simp
  | cons index rest ih =>
    obtain ⟨hnew, hrest⟩ := nodup_cons.mp hnodup
    unfold pruneLoop
    by_cases hother : other = index
    · subst hother
      have hhere : ∀ before : Store, (before.pruneLoop nowNs rest).2.sessions[other]? =
          before.sessions[other]? := by
        intro before
        simp [ih hrest before, hnew]
      cases hslot : store.sessions[other]? with
      | none => simp [hslot, hhere, sessionAt]
      | some slot =>
        have hat : store.sessionAt other = slot := by simp [hslot, sessionAt]
        rw [hat]
        cases slot with
        | none => simp [hhere, hslot]
        | some session =>
          by_cases hexp : isExpired session nowNs = true
          · simp [hexp, hhere, getElem?_removeAt, hslot, filter_some]
          · simp [hexp, hhere, hslot, filter_some]
    have hmem : (other ∈ index :: rest) = (other ∈ rest) := by simp [hother]
    simp only [hmem]
    cases hses : store.sessionAt index with
    | none => exact ih hrest store
    | some session =>
      dsimp only
      split
      · rw [ih hrest, getElem?_removeAt, if_neg hother]
      · exact ih hrest store

lemma pruneLoop_all (store : Store) (nowNs : Int) :
    (store.pruneLoop nowNs (range store.sessions.length)).2.sessions =
      store.sessions.map fun slot => slot.filter fun session => !isExpired session nowNs := by
  apply ext_getElem?
  intro index
  rw [pruneLoop_sessions nodup_range, getElem?_map]
  by_cases hlt : index < store.sessions.length
  · simp [hlt]
  · rw [getElem?_eq_none (not_lt.mp hlt)]
    rfl

lemma pruneLoop_routeIds (hnodup : indices.Nodup) (store : Store) :
    (store.pruneLoop nowNs indices).1 = indices.filterMap fun index =>
      ((store.sessionAt index).filter fun session => isExpired session nowNs).map (·.routeId) := by
  induction indices generalizing store with
  | nil => rfl
  | cons index rest ih =>
    obtain ⟨hnew, hrest⟩ := nodup_cons.mp hnodup
    unfold pruneLoop
    cases hses : store.sessionAt index with
    | none =>
      rw [filterMap_cons, hses]
      exact ih hrest store
    | some session =>
      dsimp only
      rw [filterMap_cons, hses]
      by_cases hexp : isExpired session nowNs = true
      · rw [if_pos hexp, filter_some, if_pos hexp]
        dsimp only
        rw [ih hrest]
        congr 1
        apply filterMap_congr
        intro other hmem
        rw [sessionAt_removeAt (ne_of_mem_of_not_mem hmem hnew)]
      · rw [if_neg hexp, filter_some, if_neg hexp]
        exact ih hrest store

lemma filterMap_range_getElem? {α β : Type} (l : List (Option α)) (f : Option α → Option β)
    (hnone : f none = none) :
    ((range l.length).filterMap fun index => f (l[index]?.join)) = l.reduceOption.filterMap
      fun a => f (some a) := by
  induction l with
  | nil => rfl
  | cons slot rest ih =>
    rw [length_cons, range_succ_eq_map, filterMap_cons, filterMap_map]
    have hrest : (range rest.length).filterMap
        ((fun index => f ((slot :: rest)[index]?.join)) ∘ Nat.succ) =
          rest.reduceOption.filterMap fun a => f (some a) := ih
    rw [hrest]
    cases slot with
    | none => simp [hnone]
    | some a => rfl

lemma pruneLoop_routeIds_all (store : Store) (nowNs : Int) :
    (store.pruneLoop nowNs (range store.sessions.length)).1 =
      (store.expiredSessions nowNs).map (·.routeId) := by
  rw [pruneLoop_routeIds nodup_range]
  unfold sessionAt expiredSessions
  rw [filterMap_range_getElem? store.sessions
    (fun slot => (slot.filter fun session => isExpired session nowNs).map (·.routeId)) rfl]
  generalize store.sessions.reduceOption = sessions
  induction sessions with
  | nil => rfl
  | cons session rest ih =>
    by_cases hexp : isExpired session nowNs = true
    · rw [filterMap_cons, filter_some, if_pos hexp, filter_cons, if_pos hexp, ih]
      rfl
    rw [filterMap_cons, filter_some, if_neg hexp, filter_cons, if_neg hexp, ih]
    rfl

/-! ### The next deadline -/

/-- `next` is not later than `deadline`. -/
def Reaches (next : Option Int) (deadline : Int) : Prop := ∃ due, next = some due ∧ due ≤ deadline

lemma reaches_earlier (next : Option Int) (deadline : Int) :
    Reaches (earlier next deadline) deadline := by
  unfold earlier
  cases next with
  | none => exact ⟨deadline, rfl, Int.le_refl _⟩
  | some found =>
    dsimp only
    split
    · exact ⟨deadline, rfl, Int.le_refl _⟩
    · exact ⟨found, rfl, by omega⟩

lemma Reaches.earlier (h : Reaches next deadline) (other : Int) :
    Reaches (earlier next other) deadline := by
  obtain ⟨due, rfl, hle⟩ := h
  unfold Store.earlier
  dsimp only
  split
  · exact ⟨other, rfl, by omega⟩
  · exact ⟨due, rfl, hle⟩

lemma Reaches.pruneIntoLoop (h : Reaches next deadline) (nowNs : Int) (indices : List Nat)
    (store : Store) : Reaches (store.pruneIntoLoop nowNs next indices).2.1 deadline := by
  induction indices generalizing store next with
  | nil => exact h
  | cons index rest ih =>
    unfold Store.pruneIntoLoop
    cases hses : store.sessionAt index with
    | none => exact ih h store
    | some session =>
      dsimp only
      split
      · exact ih h _
      split
      · exact ih (h.earlier _) store
      · exact ih h store

/-- The deadlines of the sessions that stay are reached. -/
theorem pruneIntoLoop_reaches (hnodup : indices.Nodup) (store : Store) (next : Option Int)
    (hmem : index ∈ indices) (hses : store.sessionAt index = some session)
    (hlive : isExpired session nowNs = false) (hoff : session.connected = false)
    (hdue : session.expiresAtNs = some deadline) :
    Reaches (store.pruneIntoLoop nowNs next indices).2.1 deadline := by
  induction indices generalizing store next with
  | nil => cases hmem
  | cons other rest ih =>
    obtain ⟨hnew, hrest⟩ := nodup_cons.mp hnodup
    unfold Store.pruneIntoLoop
    rcases mem_cons.mp hmem with rfl | hlater
    · rw [hses]
      dsimp only
      rw [hlive, hoff, hdue]
      exact (reaches_earlier next deadline).pruneIntoLoop nowNs rest store
    have hne : index ≠ other := fun hsame => hnew (hsame ▸ hlater)
    cases hother : store.sessionAt other with
    | none => exact ih hrest store next hlater hses
    | some found =>
      dsimp only
      split
      · exact ih hrest _ next hlater (by rw [sessionAt_removeAt hne]; exact hses)
      split
      · exact ih hrest store _ hlater hses
      · exact ih hrest store next hlater hses

lemma pruneExpiredInto_edits (store : Store) (nowNs : Int) (room : Nat) :
    Edits store (store.pruneExpiredInto nowNs room).2 := by
  unfold pruneExpiredInto
  split
  · exact .refl
  split
  · exact .refl
  split
  · exact .refl
  dsimp only
  obtain ⟨-, hstore⟩ := pruneIntoLoop_eq nowNs (range store.sessions.length) store none
  refine .tail (pruneLoop_edits nowNs (range store.sessions.length) store) ?_
  rw [hstore]
  refine .regate _ fun session hmem hoff deadline hdue => ?_
  rw [pruneLoop_all] at hmem
  obtain ⟨index, hidx⟩ := getElem?_of_mem (reduceOption_mem_iff.mp hmem)
  rw [getElem?_map] at hidx
  obtain ⟨slot, hslot, hfilter⟩ := map_eq_some_iff.mp hidx
  obtain ⟨rfl, hlive⟩ := filter_eq_some_iff.mp hfilter
  exact pruneIntoLoop_reaches nodup_range store none
    (List.mem_range.mpr (lt_of_getElem? hslot)) (sessionAt_iff.mpr hslot)
    (by simpa using hlive) hoff hdue

lemma dueLoop_reaches {sessions : List Session} (hmem : session ∈ sessions)
    (hoff : session.connected = false) (hdue : session.expiresAtNs = some deadline)
    (hlive : nowNs < deadline) (next : Option Int) :
    Reaches (sessions.foldl (dueLoop nowNs) next) deadline := by
  have hkeep : ∀ (rest : List Session) (next : Option Int), Reaches next deadline →
      Reaches (rest.foldl (dueLoop nowNs) next) deadline := by
    intro rest
    induction rest with
    | nil => exact fun next h => h
    | cons found rest ih =>
      intro next h
      refine ih _ ?_
      unfold dueLoop
      split
      · split
        · exact h.earlier _
        · exact h
      · exact h
  induction sessions generalizing next with
  | nil => cases hmem
  | cons found rest ih =>
    rcases mem_cons.mp hmem with rfl | hlater
    · refine hkeep rest _ ?_
      unfold dueLoop
      rw [hoff, hdue]
      dsimp only
      rw [if_pos hlive]
      exact reaches_earlier next deadline
    · exact ih hlater _

lemma not_expired_of_length (h : (store.expiredSessions nowNs).length = 0)
    (hmem : session ∈ store.sessions.reduceOption) : isExpired session nowNs = false := by
  rw [length_eq_zero_iff] at h
  unfold expiredSessions at h
  rw [filter_eq_nil_iff] at h
  simpa using h session hmem

lemma dueExpiryCount_edits (store : Store) (nowNs : Int) :
    Edits store (store.dueExpiryCount nowNs).2 := by
  unfold dueExpiryCount
  split
  · exact .refl
  split
  · exact .refl
  dsimp only
  split
  · rename_i hnone
    refine .single (.regate _ fun session hmem hoff deadline hdue => ?_)
    have hlive := not_expired_of_length hnone hmem
    unfold isExpired at hlive
    rw [hoff, hdue] at hlive
    exact dueLoop_reaches hmem hoff hdue (by simpa using hlive) none
  · exact .refl

/-! ### All calls -/

lemma step_edits (hidx : store.Indexed) (op : Op) : Edits store (store.step op).2 := by
  cases op with
  | openSession clientId cleanStart expiryInterval nowNs memory =>
    exact openSession_edits hidx clientId cleanStart expiryInterval nowNs memory
  | disconnect handle expiryOverride nowNs => exact disconnect_edits store handle expiryOverride nowNs
  | enqueuePublish handle topic payload qos retain properties nowNs memory =>
    exact enqueuePublish_edits store handle topic payload qos retain properties nowNs memory
  | drainInto handle nowNs receiveMaximum capacity memory =>
    show Edits store (store.drainInto handle nowNs receiveMaximum capacity memory).2
    unfold drainInto
    split
    · exact .refl
    · exact onSession_edits fun held => held.life_drainInto _ _ _ _ _
  | retryUnsentPublish handle packetId =>
    exact onSession_edits fun held => held.life_retryUnsentPublish packetId
  | handleAck handle packetType packetId reasonCode =>
    exact onSession_edits fun held => held.life_handleAck packetType packetId reasonCode
  | dropOversizedPublish handle packetId =>
    exact onSession_edits fun held => held.life_dropOversizedPublish packetId

/-- **Every call is a chain of edits.** -/
theorem call_edits (hidx : store.Indexed) (call : Call) : Edits store (store.call call).2 := by
  cases call with
  | message op => exact step_edits hidx op
  | setSubscription handle subscription identifier memory =>
    show Edits store (store.setSubscription handle subscription identifier memory).2
    unfold setSubscription
    split
    · exact .refl
    · exact onSession_edits fun held => held.life_setSubscription _ _ _
  | removeSubscription handle topicFilter =>
    exact onSession_edits fun held => held.life_removeSubscription topicFilter
  | recordIncomingQos2 handle packetId memory =>
    show Edits store (store.recordIncomingQos2 handle packetId memory).2
    unfold recordIncomingQos2
    split
    · exact .refl
    · exact onSession_edits fun held => held.life_recordIncomingQos2 _ _ _
  | completeIncomingQos2 handle packetId =>
    exact onSession_edits fun held => held.life_completeIncomingQos2 packetId
  | discard clientId => exact discard_edits store clientId
  | discardHandle handle => exact discardHandle_edits store handle
  | find clientId nowNs => exact find_edits store clientId nowNs
  | pruneExpired nowNs => exact pruneLoop_edits nowNs _ store
  | pruneExpiredInto nowNs room => exact pruneExpiredInto_edits store nowNs room
  | dueExpiryCount nowNs => exact dueExpiryCount_edits store nowNs
  | restoreSnapshot input nowNs downtimeNs memory =>
    exact restoreSnapshot_edits store input nowNs downtimeNs memory

lemma indexed_empty (options : Options) : ({ options := options } : Store).Indexed :=
  ⟨.empty, .empty⟩

/-- **What every edit keeps, every run of calls keeps.** -/
theorem run_induction {P : Store → Prop} (options : Options) (hinit : P { options := options })
    (hedit : ∀ store store', store.Indexed → Edit store store' → P store → P store')
    (calls : List Call) :
    (exec call { options := options } calls).Indexed ∧ P (exec call { options := options } calls) :=
  exec_induction call (fun store => store.Indexed ∧ P store) ⟨indexed_empty options, hinit⟩
    (fun store c ⟨hidx, hP⟩ => by
      have hchain : ∀ {last : Store}, Edits store last → last.Indexed ∧ P last := by
        intro last h
        induction h with
        | refl => exact ⟨hidx, hP⟩
        | tail _ hstep ih => exact ⟨hstep.indexed ih.1, hedit _ _ ih.1 hstep ih.2⟩
      exact hchain (call_edits hidx c)) calls

end Store

end Netz.Mqtt

/-! ### The expiry gate of the session store

`nextExpiryNs` is never later than the deadline of an offline session, so what it lets through
loses nothing: the sweeps behind it count and remove the sessions a full scan finds expired. -/

namespace Netz.Mqtt

open Lib List

namespace Store

/-! ### The gate -/

/-- **No offline session expires before the gate opens.** -/
def Gate (store : Store) : Prop :=
  ∀ session ∈ store.sessions.reduceOption, session.connected = false →
    ∀ deadline, session.expiresAtNs = some deadline → Reaches store.nextExpiryNs deadline

variable {sessions : List (Option Session)} {session : Session} {store : Store} {nowNs : Int}
  {room : Nat}

lemma mem_reduceOption_set {index : Nat} {slot : Option Session}
    (h : session ∈ (sessions.set index slot).reduceOption) :
    slot = some session ∨ session ∈ sessions.reduceOption := by
  rw [reduceOption_mem_iff] at h ⊢
  rcases mem_or_eq_of_mem_set h with hold | hnew
  · exact .inr hold
  · exact .inl hnew.symm

lemma mem_reduceOption_insertSlot {added : Session}
    (h : session ∈ (insertSlot added sessions).reduceOption) :
    session = added ∨ session ∈ sessions.reduceOption :=
  mem_cons.mp ((reduceOption_insertSlot_perm added sessions).mem_iff.mp h)

lemma nextExpiryNs_goOffline (store : Store) (index : Nat) (session : Session) (nowNs : Int) :
    (store.goOffline index session nowNs).nextExpiryNs =
      match expiryDeadline nowNs session.expiryInterval with
      | none => store.nextExpiryNs
      | some deadline => earlier store.nextExpiryNs deadline := by
  unfold goOffline earlier
  cases expiryDeadline nowNs session.expiryInterval with
  | none => rfl
  | some deadline =>
    cases store.nextExpiryNs with
    | none | some => rfl

/-- **Every edit keeps the gate.** -/
theorem Edit.gate {store' : Store} (h : Edit store store') (hgate : store.Gate) : store'.Gate := by
  intro session hmem hoff deadline hdue
  cases h with
  | @put index before held hslot hlife =>
    rcases mem_reduceOption_set hmem with hsame | hold
    · obtain rfl := Option.some.inj hsame
      have hpre : before ∈ store.sessions.reduceOption :=
        reduceOption_mem_iff.mpr (mem_of_getElem? hslot)
      have hconn : before.connected = false :=
        (congrArg Session.Life.connected hlife).symm.trans hoff
      have hexpires : before.expiresAtNs = some deadline :=
        (congrArg Session.Life.expiresAtNs hlife).symm.trans hdue
      exact hgate before hpre hconn deadline hexpires
    · exact hgate session hold hoff deadline hdue
  | resume expiryInterval hslot =>
    rcases mem_reduceOption_set hmem with hsame | hold
    · obtain rfl := Option.some.inj hsame
      cases hoff
    · exact hgate session hold hoff deadline hdue
  | @offline index before expiryInterval nowNs hslot =>
    rw [nextExpiryNs_goOffline]
    rcases mem_reduceOption_set hmem with hsame | hold
    · obtain rfl := Option.some.inj hsame
      have hnext : expiryDeadline nowNs expiryInterval = some deadline := hdue
      rw [hnext]
      exact reaches_earlier store.nextExpiryNs deadline
    have hreach := hgate session hold hoff deadline hdue
    cases expiryDeadline nowNs expiryInterval with
    | none => exact hreach
    | some other => exact hreach.earlier other
  | remove hslot =>
    rcases mem_reduceOption_set hmem with hsame | hold
    · cases hsame
    · exact hgate session hold hoff deadline hdue
  | create hnew h =>
    obtain ⟨routeId, nextRouteId, -, rfl⟩ := create_ok h
    rcases mem_reduceOption_insertSlot hmem with rfl | hold
    · cases hoff
    · exact hgate session hold hoff deadline hdue
  | @restore header nextPacketId nowNs held hclient hroute hlife =>
    unfold placeRestored
    rcases mem_reduceOption_insertSlot hmem with rfl | hold
    · rw [hdue]
      exact reaches_earlier store.nextExpiryNs deadline
    have hreach := hgate session hold hoff deadline hdue
    cases held.session.expiresAtNs with
    | none => exact hreach
    | some other => exact hreach.earlier other
  | counters header => exact hgate session hmem hoff deadline hdue
  | regate next hnext => exact hnext session hmem hoff deadline hdue

lemma gate_empty (options : Options) : ({ options := options } : Store).Gate :=
  fun _ hmem => by cases hmem

/-! ### Behind the gate -/

lemma Gate.expired_nil (h : store.Gate)
    (hclosed : ∀ due, store.nextExpiryNs = some due → nowNs < due) :
    store.expiredSessions nowNs = [] := by
  unfold expiredSessions
  rw [filter_eq_nil_iff]
  intro session hmem hexp
  unfold isExpired at hexp
  cases hoff : session.connected with
  | true => simp [hoff] at hexp
  | false =>
    cases hdue : session.expiresAtNs with
    | none => simp [hdue] at hexp
    | some deadline =>
      rw [hoff, hdue] at hexp
      obtain ⟨due, hnext, hle⟩ := h session hmem hoff deadline hdue
      have hpast : deadline ≤ nowNs := by simpa using hexp
      have hfuture := hclosed due hnext
      omega

/-- What is left when the expired sessions are gone. -/
def liveSlots (store : Store) (nowNs : Int) : List (Option Session) :=
  store.sessions.map fun slot => slot.filter fun session => !isExpired session nowNs

lemma liveSlots_of_expired_nil (h : store.expiredSessions nowNs = []) :
    store.liveSlots nowNs = store.sessions := by
  unfold liveSlots
  refine (map_congr_left fun slot hmem => ?_).trans (map_id store.sessions)
  cases slot with
  | none => rfl
  | some session =>
    have hlive := not_expired_of_length (congrArg length h)
      (reduceOption_mem_iff.mpr hmem)
    rw [Option.filter_some, hlive]
    rfl

lemma pruneExpired_exact (store : Store) (nowNs : Int) :
    (store.pruneExpired nowNs).1 = (store.expiredSessions nowNs).length ∧
      (store.pruneExpired nowNs).2.sessions = store.liveSlots nowNs := by
  refine ⟨?_, pruneLoop_all store nowNs⟩
  show (store.pruneLoop nowNs (range store.sessions.length)).1.length = _
  rw [pruneLoop_routeIds_all, length_map]

lemma dueExpiryCount_exact (h : store.Gate) (nowNs : Int) :
    (store.dueExpiryCount nowNs).1 = (store.expiredSessions nowNs).length ∧
      (store.dueExpiryCount nowNs).2.sessions = store.sessions := by
  unfold dueExpiryCount
  cases hnext : store.nextExpiryNs with
  | none =>
    refine ⟨?_, rfl⟩
    rw [h.expired_nil (by rw [hnext]; simp)]
    rfl
  | some due =>
    dsimp only
    by_cases hclosed : nowNs < due
    · rw [if_pos hclosed]
      refine ⟨?_, rfl⟩
      rw [h.expired_nil (by rw [hnext]; simpa using hclosed)]
      rfl
    rw [if_neg hclosed]
    split
    · rename_i hzero
      exact ⟨hzero.symm, rfl⟩
    · exact ⟨rfl, rfl⟩

lemma pruneExpiredInto_exact (h : store.Gate)
    (hroom : (store.expiredSessions nowNs).length ≤ room) :
    (store.pruneExpiredInto nowNs room).1 = .ok ((store.expiredSessions nowNs).map (·.routeId)) ∧
      (store.pruneExpiredInto nowNs room).2.sessions = store.liveSlots nowNs := by
  unfold pruneExpiredInto
  cases hnext : store.nextExpiryNs with
  | none =>
    have hnil : store.expiredSessions nowNs = [] := h.expired_nil (by rw [hnext]; simp)
    simp [liveSlots_of_expired_nil hnil, hnil]
  | some due =>
    dsimp only
    by_cases hclosed : nowNs < due
    · have hnil : store.expiredSessions nowNs = [] :=
        h.expired_nil (by rw [hnext]; simpa using hclosed)
      simp [hclosed, liveSlots_of_expired_nil hnil, hnil]
    rw [if_neg hclosed, if_neg (not_lt.mpr hroom)]
    obtain ⟨hids, hstore⟩ :=
      pruneIntoLoop_eq nowNs (range store.sessions.length) store none
    constructor
    · simp [hids, pruneLoop_routeIds_all]
    show (store.pruneIntoLoop nowNs none _).2.2.sessions = _
    rw [hstore]
    exact pruneLoop_all store nowNs

lemma pruneExpiredInto_small (h : store.Gate)
    (hroom : room < (store.expiredSessions nowNs).length) :
    store.pruneExpiredInto nowNs room = (.error .bufferTooSmall, store) := by
  have hopen : ¬ ∀ due, store.nextExpiryNs = some due → nowNs < due := by
    intro hclosed
    simp [h.expired_nil hclosed] at hroom
  unfold pruneExpiredInto
  cases hnext : store.nextExpiryNs with
  | none => simp [hnext] at hopen
  | some due =>
    have hdue : ¬ nowNs < due := by
      rw [hnext] at hopen
      simpa using hopen
    simp [hdue, hroom]

/-! ### Route identifiers -/

lemma Indexed.routeIds_nodup (h : store.Indexed) :
    (store.sessions.reduceOption.map (·.routeId)).Nodup := h.routes.nodup_slots

lemma Indexed.expired_nodup (h : store.Indexed) (nowNs : Int) :
    ((store.expiredSessions nowNs).map (·.routeId)).Nodup :=
  ((filter_sublist).map _).nodup h.routeIds_nodup

/-! ### Every run -/

/-- **The indexes find exactly the sessions held**, and no identifier is held twice. -/
theorem indexes_exact (options : Options) (calls : List Call) :
    let store := exec call { options := options } calls
    (∀ clientId i, store.clientIndex.get clientId = some i ↔
        ∃ session, store.sessions[i]? = some (some session) ∧ session.clientId = clientId) ∧
      (∀ routeId i, store.routeIndex.get routeId = some i ↔
        ∃ session, store.sessions[i]? = some (some session) ∧ session.routeId = routeId) ∧
      (store.sessions.reduceOption.map (·.clientId)).Nodup ∧
      (store.sessions.reduceOption.map (·.routeId)).Nodup := by
  obtain ⟨h, -⟩ := run_induction options (P := fun _ => True) trivial (fun _ _ _ _ _ => trivial) calls
  exact ⟨h.clients.slots_iff, h.routes.slots_iff, h.clients.nodup_slots, h.routeIds_nodup⟩

/-- **The expiry gate is exact.** -/
theorem expiry_gate_exact (options : Options) (calls : List Call) :
    let store := exec call { options := options } calls
    store.Gate ∧
      ∀ nowNs,
        ((store.expiredSessions nowNs).map (·.routeId)).Nodup ∧
          ((store.pruneExpired nowNs).1 = (store.expiredSessions nowNs).length ∧
            (store.pruneExpired nowNs).2.sessions = store.liveSlots nowNs) ∧
          ((store.dueExpiryCount nowNs).1 = (store.expiredSessions nowNs).length ∧
            (store.dueExpiryCount nowNs).2.sessions = store.sessions) ∧
          ∀ room,
            if room < (store.expiredSessions nowNs).length then
              store.pruneExpiredInto nowNs room = (.error .bufferTooSmall, store)
            else
              (store.pruneExpiredInto nowNs room).1 =
                  .ok ((store.expiredSessions nowNs).map (·.routeId)) ∧
                (store.pruneExpiredInto nowNs room).2.sessions = store.liveSlots nowNs := by
  obtain ⟨hindexed, hgate⟩ := run_induction options (gate_empty options)
    (fun _ _ _ hedit hgate => hedit.gate hgate) calls
  refine ⟨hgate, fun nowNs => ⟨hindexed.expired_nodup nowNs, pruneExpired_exact _ nowNs,
    dueExpiryCount_exact hgate nowNs, fun room => ?_⟩⟩
  by_cases hroom : room < ((exec call { options := options } calls).expiredSessions nowNs).length
  · rw [if_pos hroom]
    exact pruneExpiredInto_small hgate hroom
  · rw [if_neg hroom]
    exact pruneExpiredInto_exact hgate (not_lt.mp hroom)

end Store

end Netz.Mqtt
