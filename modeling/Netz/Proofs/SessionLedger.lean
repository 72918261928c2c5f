/-
Delivery neither loses nor duplicates.

`Tracks` says that the books of a session are its ledger, which is made from the calls and their
replies.  Every change of a session keeps it so, and the books of a session in order place every
accepted message once.  That is exactly-once delivery: a message that was answered with `queued`
is in the queue, inflight under the packet identifier of the PUBLISH it left with, or finished, and
the first PUBLISH packets that drains return come in the order of acceptance.
-/
import Netz.Proofs.Retransmission

namespace Netz.Mqtt

open Lib Inflight Held Session List Option

/-! ### What is gone -/

lemma hasExpired_eq_lapsed (publish : OwnedPublish) (nowNs : Int) :
    hasExpired nowNs publish = publish.lapsed nowNs := by
  unfold hasExpired remainingExpiry OwnedPublish.lapsed
  cases publish.expiryInterval with
  | none => rfl
  | some interval =>
    dsimp only
    by_cases hzero : interval = 0
    · simp [hzero]
    rw [if_neg hzero]
    split
    · next hgone =>
        rw [any_some, decide_eq_true hgone]
        rfl
    next hleft =>
      have hsome : interval - (max (nowNs - publish.storedAtNs) 0 / nsPerS).toNat ≠ 0 := by
        unfold nsPerS at hleft ⊢
        omega
      rw [any_some, decide_eq_false hleft]
      exact beq_false_of_ne fun hc => hsome (some.inj hc)

/-- No two slots have one packet identifier. -/
theorem Session.Inv.inflightUnder_eq {session : Session} (hinv : session.Inv) {packetId index : Nat}
    {inflight : Inflight} (hindex : session.packetIndex.get packetId = some index)
    (hslot : session.inflight[index]? = some (some inflight)) :
    session.inflightUnder packetId = [inflight.publish] := by
  have hid := (hinv.window.index.indexed packetId index).mp hindex
  rw [packetIds_getElem? hslot, some.injEq, some.injEq] at hid
  have hmem := reduceOption_mem_iff.mpr (mem_of_getElem? hslot)
  have hdistinct := hinv.window.index.distinct
  rw [packetIds, reduceOption_map] at hdistinct
  unfold inflightUnder
  cases hfind : session.inflight.reduceOption.find? (·.packetId == packetId) with
  | none =>
    have hnot := find?_eq_none.mp hfind inflight hmem
    simp [hid] at hnot
  | some found =>
    have hfound : (found.packetId == packetId) = true :=
      find?_some (p := fun inflight : Inflight => inflight.packetId == packetId) hfind
    rw [inj_on_of_nodup_map hdistinct (mem_of_find?_eq_some hfind) hmem
      ((beq_iff_eq.mp hfound).trans hid.symm)]
    rfl

/-- What a drain at `nowNs` takes out of the window. -/
def expiring (slots : List (Option Inflight)) (nowNs : Int) : List OwnedPublish :=
  (slots.reduceOption.filter fun inflight =>
    inflight.isPublish && hasExpired nowNs inflight.publish).map (·.publish)

lemma expiring_append (front rest : List (Option Inflight)) (nowNs : Int) :
    expiring (front ++ rest) nowNs = expiring front nowNs ++ expiring rest nowNs := by
  unfold expiring
  rw [reduceOption_append, filter_append, map_append]

lemma pruneSlot_history (nowNs : Int) (held : Held) (index : Nat) :
    (pruneSlot nowNs held index).session.history =
      { held.session.history with
        finished := held.session.history.finished ++
          (expiring held.session.inflight[index]?.toList nowNs).map (·, .expired) } := by
  unfold pruneSlot
  split
  · next inflight hslot =>
      rw [hslot]
      split
      · next hstays =>
          have hkeep : (inflight.isPublish && hasExpired nowNs inflight.publish) = false := by
            rcases hstays with hstate | hfresh
            · simp [isPublish, hstate]
            · simp [hfresh]
          simp [expiring, hkeep]
      next hgone =>
        have hdrop : (inflight.isPublish && hasExpired nowNs inflight.publish) = true := by
          simpa [isPublish] using hgone
        simp [expiring, hdrop, removeInflight]
  next hvacant =>
    have hnothing : expiring held.session.inflight[index]?.toList nowNs = [] := by
      rcases hslot : held.session.inflight[index]? with _ | _ | inflight
      · rfl
      · rfl
      · exact absurd hslot (hvacant inflight)
    rw [hnothing]
    simp

lemma pruneSlots_history (nowNs : Int) (held : Held) (n : Nat) :
    ((range n).foldl (pruneSlot nowNs) held).session.history =
      { held.session.history with
        finished := held.session.history.finished ++
          (expiring (held.session.inflight.take n) nowNs).map (·, .expired) } := by
  induction n with
  | zero => simp [expiring]
  | succ n ih =>
    rw [range_succ, foldl_append, foldl_cons, foldl_nil, pruneSlot_history, ih,
      pruneSlots_inflight, if_neg (Nat.lt_irrefl n), take_add_one, expiring_append]
    simp

/-- What expires is finished, and nothing else is written down. -/
theorem pruneExpired_history {held : Held} (h : Inv held.session) (nowNs : Int) :
    (held.pruneExpiredPublishes nowNs).session.history =
      { held.session.history with
        finished := held.session.history.finished ++
          (held.session.lapsing nowNs).map (·, .expired) } := by
  have hsame := SameWindow.advance (held.pruneQueued nowNs).session
  have hlapsing : held.session.lapsing nowNs =
      held.session.waiting.filter (hasExpired nowNs) ++ expiring held.session.inflight nowNs := by
    have hclock : hasExpired nowNs = fun publish => publish.lapsed nowNs :=
      funext fun publish => hasExpired_eq_lapsed publish nowNs
    rw [expiring, hclock]
    rfl
  unfold pruneExpiredPublishes pruneInflight
  rw [pruneSlots_history, take_length, hlapsing]
  simp only [hsame.history, hsame.inflight]
  simp [pruneQueued, h.queue.rest]

/-! ### A session and its ledger -/

namespace Ledger

variable {l : Ledger} {packet : PublishTransmission}

lemma transmit_again (h : packet.serial ∈ l.departed.map (·.serial)) :
    l.transmit (.publish packet) = { l with resent := l.resent ++ [packet.serial] } :=
  if_pos h

lemma transmit_first (h : packet.serial ∉ l.departed.map (·.serial)) :
    l.transmit (.publish packet) = { l with departed := l.departed ++ [packet] } :=
  if_neg h

/-- Packets that departed before are sent again. -/
theorem foldl_transmit (out : List Transmission)
    (h : ∀ n ∈ out.filterMap Transmission.serial?, n ∈ l.departed.map (·.serial)) :
    out.foldl transmit l = { l with resent := l.resent ++ out.filterMap Transmission.serial? } := by
  induction out generalizing l with
  | nil => simp
  | cons transmission rest ih =>
    rw [foldl_cons]
    cases transmission with
    | publish packet =>
      rw [filterMap_cons_some (by rfl)] at h ⊢
      rw [transmit_again (h _ mem_cons_self)]
      refine (ih (l := { l with resent := l.resent ++ [packet.serial] }) fun n hn =>
        h n (mem_cons_of_mem _ hn)).trans ?_
      simp
    | pubrel id =>
      rw [filterMap_cons_none (by rfl)] at h ⊢
      exact ih h

end Ledger

/-- The first PUBLISH of a message says what was queued. -/
structure Carries (packet : PublishTransmission) (publish : OwnedPublish) : Prop where
  serial : packet.serial = publish.serial
  topic : packet.topic = publish.topic
  payload : packet.payload = publish.payload
  qos : packet.qos = publish.qos
  retain : packet.retain = publish.retain
  properties : packet.properties = publish.properties
  first : packet.dup = false

/-- The books of a session are its ledger. -/
structure Tracks (l : Ledger) (history : History) : Prop where
  accepted : l.accepted = history.accepted
  departed : l.departed.map (·.serial) = history.departed.map (·.serial)
  carried : ∀ packet ∈ l.departed, ∃ publish ∈ l.accepted, Carries packet publish
  finished : l.finished = history.finished
  resent : l.resent = history.resent

namespace Tracks

variable {l : Ledger} {history : History} {session : Session} {inflight : Inflight}
  {publish : OwnedPublish} {packetId index : Nat} {held : Held} {out : List Transmission}

lemma new : Tracks {} {} := ⟨rfl, rfl, by simp, rfl, rfl⟩

lemma mark (h : Tracks l history) :
    Tracks { l with resent := [] } { history with resent := [] } :=
  ⟨h.accepted, h.departed, h.carried, h.finished, rfl⟩

lemma accept (h : Tracks l history) (publish : OwnedPublish) :
    Tracks (l.accept (.ok publish))
      { history with accepted := history.accepted ++ [publish] } where
  accepted := by
    show l.accepted ++ [publish] = _
    rw [h.accepted]
  departed := h.departed
  carried := by
    intro packet hmem
    obtain ⟨old, hold, hcarries⟩ := h.carried packet hmem
    exact ⟨old, mem_append_left _ hold, hcarries⟩
  finished := h.finished
  resent := h.resent

lemma finish (h : Tracks l history) (gone : List OwnedPublish) (fate : Fate) :
    Tracks (l.finish gone fate)
      { history with finished := history.finished ++ gone.map (·, fate) } :=
  ⟨h.accepted, h.departed, h.carried, by rw [← h.finished]; rfl, h.resent⟩

/-! ### Drains -/

lemma resend (h : Tracks l session.history) (hbooks : BooksOk session) (nowNs : Int)
    (receiveMaximum capacity : Nat) :
    Tracks ((session.resend nowNs receiveMaximum capacity).out.foldl Ledger.transmit l)
      { session.history with
        resent := session.history.resent ++
          (session.resend nowNs receiveMaximum capacity).out.filterMap Transmission.serial? } := by
  obtain ⟨taken, hout, hpend, -⟩ := resendLoop_taken nowNs receiveMaximum capacity
    session.inflight [] session.countSentPublishInflight
  have htaken : (session.resend nowNs receiveMaximum capacity).out.filterMap
      Transmission.serial? = taken := hout
  rw [Ledger.foldl_transmit _ (fun n hn => ?_)]
  · exact ⟨h.accepted, h.departed, h.carried, h.finished, by rw [h.resent]⟩
  · rw [h.departed]
    refine hbooks.publishing_departed (pending_subset _ ?_)
    rw [hpend]
    exact mem_append_left _ (htaken ▸ hn)

lemma move (h : Tracks l session.history) (hinv : Inv session)
    (hslot : session.queued[index]? = some (some publish))
    (hfresh : Fresh session publish inflight) (next : Nat) (nowNs : Int) :
    Tracks (l.transmit (.publish (publishTransmission inflight nowNs)))
      (session.moved index next inflight).history := by
  obtain ⟨rfl, -, -, -, -, hfirst⟩ := hfresh
  have hwait : inflight.publish ∈ session.waiting :=
    reduceOption_mem_iff.mpr (mem_of_getElem? hslot)
  have hacc : inflight.publish ∈ session.history.accepted :=
    hinv.books.balanced.once.subset (by simp [hwait])
  have hnew : inflight.publish.serial ∉ l.departed.map (·.serial) := by
    rw [h.departed]
    intro hold
    obtain ⟨old, hdeparted, hserial⟩ := mem_map.mp hold
    exact absurd hserial
      (Nat.ne_of_lt (hinv.books.departed_lt_waiting old hdeparted inflight.publish hwait))
  rw [Ledger.transmit_first hnew]
  refine ⟨h.accepted, ?_, ?_, h.finished, h.resent⟩
  · show (l.departed ++ [_]).map _ = (session.history.departed ++ [inflight.publish]).map _
    rw [map_append, map_append, h.departed]
    rfl
  · intro packet hmem
    rcases mem_append.mp hmem with hold | hlast
    · exact h.carried packet hold
    · rw [mem_singleton.mp hlast]
      exact ⟨inflight.publish, h.accepted ▸ hacc, rfl, rfl, rfl, rfl, rfl, rfl, hfirst⟩

lemma drainQueue (h : Tracks (out.foldl Ledger.transmit l) session.history)
    (hinv : Inv session) (nowNs : Int) {available : Nat}
    (hroom : session.inflightCount + available ≤ maxU16) :
    ∃ more, (session.drainQueue nowNs out available).1 = .ok more ∧
      Tracks (more.foldl Ledger.transmit l) (session.drainQueue nowNs out available).2.history := by
  obtain ⟨loop, hloop, -, htracks⟩ := drainLoop_induction nowNs
    (fun loop => LoopOk loop ∧ Tracks (loop.out.foldl Ledger.transmit l) loop.session.history)
    (fun loop hboth hslot => ⟨hboth.1.skip hslot, hboth.2⟩)
    (fun loop publish hboth havailable hslot => by
      obtain ⟨hok, htracks⟩ := hboth
      have hlt : loop.session.inflightCount < maxU16 := by
        have := hok.room
        omega
      obtain ⟨inflight, next, hfresh, hnext, hmoved⟩ := moveQueued_ok hok.inv hslot hlt nowNs
      refine ⟨_, _, hmoved, hok.move havailable hslot hfresh hnext _, ?_⟩
      rw [foldl_append]
      exact htracks.move hok.inv hslot hfresh next nowNs)
    session.queued.length
    { session := session, out := out, available := available, queueIndex := session.queuedHead }
    ⟨⟨hinv, hinv.queue.head, hinv.queue.front, hroom⟩, h⟩
  unfold Session.drainQueue
  rw [hloop]
  refine ⟨loop.out, rfl, ?_⟩
  dsimp only
  rw [(SameWindow.advance { loop.session with queuedHead := loop.queueIndex }).history]
  exact htracks

/-- Whatever a drain answers, the ledger can tell what it did. -/
theorem drainInto (h : Tracks l held.session.history) (hinv : Inv held.session)
    (maxInflightPerSession : Nat) (nowNs : Int) (receiveMaximum capacity : Nat) (memory : Bool) :
    Tracks (l.drain (held.session.lapsing nowNs)
        (held.drainInto maxInflightPerSession nowNs receiveMaximum capacity memory).1)
      (held.drainInto maxInflightPerSession nowNs receiveMaximum capacity
        memory).2.session.history := by
  have hpruned := hinv.pruneExpired nowNs
  have hexpired := h.finish (held.session.lapsing nowNs) .expired
  rw [← pruneExpired_history hinv] at hexpired
  have hresent := hexpired.resend hpruned.books nowNs receiveMaximum capacity
  have hresentInv := (hpruned.afterResend nowNs receiveMaximum capacity).noteResent
    ((held.pruneExpiredPublishes nowNs).session.resend nowNs receiveMaximum capacity).out
  unfold Held.drainInto
  dsimp only
  split
  · exact hresent
  split
  · exact hresent
  split
  · exact hexpired
  next hfull =>
    split
    · exact hexpired
    have hlim := Nat.min_le_right maxInflightPerSession maxU16
    obtain ⟨more, hmore, htracks⟩ := drainQueue hresent hresentInv nowNs
      (Nat.le_trans (not_lt.mp hfull) hlim)
    rw [hmore]
    dsimp only [Ledger.drain]
    exact htracks

/-! ### Acknowledgements -/

lemma finishAt (h : Tracks l session.history) (hinv : Inv session)
    (hindex : session.packetIndex.get packetId = some index)
    (hslot : session.inflight[index]? = some (some inflight)) (fate : Fate) :
    Tracks (l.finish (session.inflightUnder packetId) fate) { session.history with
        finished := session.history.finished ++ [(inflight.publish, fate)] } := by
  rw [hinv.inflightUnder_eq hindex hslot]
  exact h.finish [inflight.publish] fate

lemma handleAck (h : Tracks l held.session.history) (hinv : Inv held.session) (handle : Handle)
    (packetType : PacketType) (packetId reasonCode : Nat) :
    Tracks (l.update (some held.session) (.handleAck handle packetType packetId reasonCode)
        (.acknowledged (held.handleAck packetType packetId reasonCode).1))
      (held.handleAck packetType packetId reasonCode).2.session.history := by
  unfold Held.handleAck
  split
  · exact h
  next index hindex =>
    split
    · next inflight hslot =>
        have hgone := h.finishAt hinv hindex hslot
        unfold Held.acknowledge
        split
        · split
          · exact hgone .acknowledged
          · exact h
        · split
          · split
            · exact hgone .refused
            · exact h
          · exact h
        · split
          · exact hgone .acknowledged
          · exact h
        · exact h
    · exact h

lemma dropOversizedPublish (h : Tracks l held.session.history) (hinv : Inv held.session)
    (handle : Handle) (packetId : Nat) :
    Tracks (l.update (some held.session) (.dropOversizedPublish handle packetId)
        (.dropped (held.dropOversizedPublish packetId).1))
      (held.dropOversizedPublish packetId).2.session.history := by
  unfold Held.dropOversizedPublish
  split
  · exact h
  next index hindex =>
    split
    · next inflight hslot =>
        split
        · exact h
        · exact h.finishAt hinv hindex hslot .oversized
    · exact h

lemma retryUnsentPublish (h : Tracks l held.session.history) (packetId : Nat) :
    Tracks l (held.retryUnsentPublish packetId).2.session.history := by
  unfold Held.retryUnsentPublish
  dsimp only
  split
  · exact h
  split
  · split <;> exact h
  · exact h

end Tracks

/-! ### Runs -/

/-- Every accepted message is in one place, the identifiers index the window, and the queue
is left in order. -/
structure Session.Accounted (l : Ledger) (session : Session) : Prop where
  /-- Serials tell accepted messages apart. -/
  serials : l.accepted.map (·.serial) = range l.accepted.length
  /-- Queued, inflight and finished messages together are the accepted ones, each once. -/
  once :
    (session.queued.reduceOption ++ session.inflight.reduceOption.map (·.publish)
      ++ l.finished.map (·.1)).Perm l.accepted
  /-- Every first PUBLISH is a whole accepted message. -/
  carried : ∀ packet ∈ l.departed, ∃ publish ∈ l.accepted, Carries packet publish
  indexed : ∀ packetId slot, session.packetIndex.get packetId = some slot ↔
    ∃ inflight, session.inflight[slot]? = some (some inflight) ∧ inflight.packetId = packetId
  distinct : (session.inflight.reduceOption.map (·.packetId)).Nodup
  nonzero : ∀ inflight ∈ session.inflight.reduceOption, inflight.packetId ≠ 0
  /-- What has left the queue and what is still in it stand in the order of acceptance. -/
  ordered :
    (l.departed.map (·.serial) ++ session.queued.reduceOption.map (·.serial)).Sublist
      (l.accepted.map (·.serial))
  /-- Only expired messages are skipped. -/
  skipped : ∀ publish ∈ l.accepted, publish ∈ session.queued.reduceOption ∨
    publish.serial ∈ l.departed.map (·.serial) ∨ (publish, .expired) ∈ l.finished

lemma Tracks.accounted {l : Ledger} {session : Session}
    (h : Tracks l session.history) (hinv : session.Inv) : session.Accounted l := by
  obtain ⟨-, ⟨hidx, -, hbnd, -⟩, ⟨hserials, honce, hord, hskipped⟩⟩ := hinv
  simp only [packetIds, messages, reduceOption_map] at *
  refine ⟨?_, ?_, h.carried, ?_, ?_, ?_, ?_, ?_⟩
  · rw [h.accepted]
    exact hserials
  · rw [h.accepted, h.finished]
    exact honce
  · simp [hidx.indexed]
  · rw [← reduceOption_map]
    exact hidx.distinct
  · intro inflight hmem
    have := hbnd inflight.packetId (mem_map_of_mem hmem)
    omega
  · rw [h.accepted, h.departed, ← map_append]
    exact hord.map _
  · intro publish hmem
    rw [h.departed, h.finished]
    rcases hskipped publish (h.accepted ▸ hmem) with hqueued | hdeparted | hexpired
    · exact .inl hqueued
    · exact .inr (.inl (mem_map_of_mem hdeparted))
    · exact .inr (.inr hexpired)

namespace Store

variable {store : Store} {op : Op} {reply : Reply} {session session' : Session} {l : Ledger}

/-- **A change of a session and its reply tell the same.** -/
theorem Changed.tracks (hchanged : Changed store op reply session session') (hinv : session.Inv)
    (h : Tracks l session.history) : Tracks (l.update (some session) op reply) session'.history := by
  cases hchanged with
  | resumed hpresent generation expiryInterval =>
    simp only [Ledger.update, hpresent, if_true]
    exact h.mark
  | offline expiryInterval deadline => exact h.mark
  | roomMade maxQueued e =>
    have hsame := SameWindow.makeRoom session maxQueued
    rw [hsame.history]
    exact h
  | enqueued maxQueued hclone hqos =>
    have hsame := SameWindow.makeRoom session maxQueued
    simp only [Ledger.update, appendQueued]
    rw [hsame.history, h.accepted, hclone]
    exact h.accept _
  | drained hsession totalBytes => exact h.drainInto hinv _ _ _ _ _
  | retried totalBytes => exact h.retryUnsentPublish _
  | acknowledged totalBytes => exact h.handleAck hinv _ _ _ _
  | dropped totalBytes => exact h.dropOversizedPublish hinv _ _

lemma exec_tracks (options : Options) (ops : List Op) (index : Nat) (session : Session)
    (h : (exec step { options := options } ops).sessions[index]? = some (some session)) :
    Tracks (ledger index (trace step { options := options } ops)) session.history := by
  refine (trace_induction step (fun _ _ => True)
    (fun events store => Sound store ∧ ∀ (index : Nat) (session : Session),
      store.sessions[index]? = some (some session) →
        Tracks (ledger index events) session.history) ?_ ?_ ops
    (fun _ _ => trivial)).2 index session h
  · exact ⟨by intro index session h; simp at h, by intro index session h; simp at h⟩
  intro events store op hboth _
  obtain ⟨hsound, htracks⟩ := hboth
  refine ⟨step_sound hsound op, fun index session' hses => ?_⟩
  have hledger : ledger index (events ++ [event step store op]) =
      (ledger index events).observe store index op (store.step op).1 := by
    unfold ledger
    rw [foldl_append]
    rfl
  rw [hledger]
  rcases step_follows store op index session' hses with ⟨hold, hsilent⟩ |
    ⟨⟨_, _, _, _, _, rfl⟩, hblank⟩ | ⟨session, hold, hchanged, hupdate⟩
  · rw [hsilent]
    exact htracks index session' hold
  · rw [hblank]
    exact Tracks.new
  · rw [hupdate]
    exact hchanged.tracks (hsound index session hold) (htracks index session hold)

/-- Three messages for one client: the first is acknowledged, the second expires in the window
and the third takes its place. -/
def deliverThree : List Op :=
  [.openSession [0x61] false 60 0 {},
    .enqueuePublish ⟨0, 1⟩ [0x74] [0x31] .atLeastOnce false [] 0 {},
    .enqueuePublish ⟨0, 1⟩ [0x74] [0x32] .exactlyOnce false
      [.fourByte .messageExpiryInterval 1] 0 {},
    .enqueuePublish ⟨0, 1⟩ [0x74] [0x33] .exactlyOnce false [] 0 {},
    .drainInto ⟨0, 1⟩ 0 2 4 {},
    .handleAck ⟨0, 1⟩ .puback 1 0,
    .drainInto ⟨0, 1⟩ 1000000000 1 4 {}]

/-- **What drains return again after a reconnect comes in the order in which they returned it
first**, in every run whose drains put no message into a slot in front of an older one. -/
theorem retransmission_ordered (options : Options) (ops : List Op)
    (hops : ∀ op ∈ ops, op.isRetry = false)
    (hkeeps : ∀ e ∈ trace step { options := options } ops, e.pre.KeepsOrder e.input)
    (index : Nat) (session : Session)
    (hsession : (exec step { options := options } ops).sessions[index]? = some (some session)) :
    (ledger index (trace step { options := options } ops)).resent.Sublist
      ((ledger index (trace step { options := options } ops)).departed.map (·.serial)) := by
  have htracks := exec_tracks options ops index session hsession
  have hordered := exec_ordered options ops hops hkeeps index session hsession
  have hbooks := (exec_sound options ops index session hsession).books
  have hresent := (pairwise_append.mp hordered.again).1
  rw [htracks.resent, htracks.departed]
  exact sublist_of_subperm_of_pairwise
    (subperm_of_subset hresent.nodup hordered.known) hresent hbooks.departed_sorted

/-- A client takes two messages, goes away and comes back for them. -/
def reconnectForTwo : List Op :=
  [.openSession [0x61] false 60 0 {},
    .enqueuePublish ⟨0, 1⟩ [0x74] [0x31] .atLeastOnce false [] 0 {},
    .enqueuePublish ⟨0, 1⟩ [0x74] [0x32] .atLeastOnce false [] 0 {},
    .drainInto ⟨0, 1⟩ 0 2 4 {},
    .disconnect ⟨0, 1⟩ none 0,
    .openSession [0x61] false 60 0 {},
    .drainInto ⟨0, 2⟩ 0 2 4 {}]

theorem retransmission_ordered_two :
    (ledger 0 (trace step { options := {} } reconnectForTwo)).resent = [0, 1] ∧
      (ledger 0 (trace step { options := {} } reconnectForTwo)).resent.Sublist
        ((ledger 0 (trace step { options := {} } reconnectForTwo)).departed.map (·.serial)) := by
  have hpresent : ((exec step { options := {} } reconnectForTwo).sessions[0]?.join).isSome := by
    decide +kernel
  obtain ⟨session, hjoin⟩ := isSome_iff_exists.mp hpresent
  exact ⟨by decide +kernel, retransmission_ordered {} reconnectForTwo (by decide)
    (by decide +kernel) 0 session (sessionAt_eq_some hjoin)⟩

/-- The first of two messages is acknowledged and a third takes its slot. -/
def reuseFirstSlot : List Op :=
  [.openSession [0x61] false 60 0 {},
    .enqueuePublish ⟨0, 1⟩ [0x74] [0x31] .atLeastOnce false [] 0 {},
    .enqueuePublish ⟨0, 1⟩ [0x74] [0x32] .atLeastOnce false [] 0 {},
    .drainInto ⟨0, 1⟩ 0 2 4 {},
    .handleAck ⟨0, 1⟩ .puback 1 0,
    .enqueuePublish ⟨0, 1⟩ [0x74] [0x33] .atLeastOnce false [] 0 {},
    .drainInto ⟨0, 1⟩ 0 2 4 {},
    .disconnect ⟨0, 1⟩ none 0,
    .openSession [0x61] false 60 0 {},
    .drainInto ⟨0, 2⟩ 0 2 4 {}]

/-- The third message was sent after the second and is sent again before it. -/
theorem reused_slot_reorders :
    (ledger 0 (trace step { options := {} } reuseFirstSlot)).departed.map (·.serial) = [0, 1, 2] ∧
      (ledger 0 (trace step { options := {} } reuseFirstSlot)).resent = [2, 1] ∧
      ¬ (ledger 0 (trace step { options := {} } reuseFirstSlot)).resent.Sublist
        ((ledger 0 (trace step { options := {} } reuseFirstSlot)).departed.map (·.serial)) := by
  have hdeparted : (ledger 0 (trace step { options := {} } reuseFirstSlot)).departed.map
      (·.serial) = [0, 1, 2] := by decide +kernel
  have hresent : (ledger 0 (trace step { options := {} } reuseFirstSlot)).resent = [2, 1] := by
    decide +kernel
  refine ⟨hdeparted, hresent, ?_⟩
  rw [hdeparted, hresent]
  decide

end Store

end Netz.Mqtt
