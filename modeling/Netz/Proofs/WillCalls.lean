/-
The calls of the Will scheduler that open and close connections.

Each keeps the invariant and panics on nothing.  A call that reports a canceled Will resolves
exactly that one, and every other leaves the pending Wills pending; an installation adds one.
-/
import Netz.Proofs.WillEdits

namespace Netz.Mqtt.Will.Scheduler

open Lib Netz.Mqtt.IndexedMinHeap List Option

variable {s s' : Scheduler} {i : Nat} {entry entry' : Entry}

def serialAt (s : Scheduler) (index : Nat) : Option Nat :=
  (entryAt s.entries index).map (·.serial)

lemma serialAt_eq (he : entryAt (slots s.entries) i = some entry) :
    s.serialAt i = some entry.serial := by
  obtain ⟨placed, hplaced, rfl⟩ := entryAt_of_slots he
  unfold serialAt
  rw [hplaced]
  rfl

lemma pending?_of_ne (h : entry.state ≠ .due) : entry.pending? = some entry.serial := by
  unfold Entry.pending?
  rw [if_neg h]

lemma getEntry_eq {handle : Handle} (he : entryAt s.entries handle.index = some entry)
    (hgen : entry.generation = handle.generation) : s.getEntry handle = .ok entry := by
  unfold getEntry
  rw [he]
  show (if entry.generation ≠ handle.generation then _ else _) = _
  rw [if_neg (fun hne => hne hgen)]

lemma getEntry_sure (s : Scheduler) (handle : Handle) :
    Sure (fun entry => entryAt s.entries handle.index = some entry ∧
      entry.generation = handle.generation) (s.getEntry handle) := by
  unfold getEntry
  cases he : entryAt s.entries handle.index with
  | none => exact Delivers.error (by simp)
  | some entry =>
    refine Delivers.ite (fun _ => Delivers.error (by simp)) (fun hgen => ?_)
    exact ⟨rfl, not_not.mp hgen⟩

/-- A Will that is scheduled anew stays pending. -/
theorem Updates.steps_scheduled {deadlineNs : Int}
    (u : Updates s i entry { entry with state := .scheduled, deadlineNs := deadlineNs } s')
    (h : Inv s) (hstate : entry.state ≠ .due) : Steps s s' [] [] := by
  refine u.steps h rfl rfl ?_
  rw [pending?_of_ne hstate]
  rfl

variable {placed : Entry} {clientId : Bytes} {connect : Connect} {preview : CloseResult}
  {nowNs : Int}

lemma state_of_slots (he : entryAt (slots s.entries) i = some entry)
    (hplaced : entryAt s.entries i = some placed) : placed.state = entry.state := by
  rw [slots_of_entryAt hplaced] at he
  rw [← some.inj he]
  rfl

/-! ### Installing -/

/-- A capacity is raised, and nothing else happens. -/
structure Reserves (s s' : Scheduler) : Prop where
  same : ∃ entriesCapacity freeCapacity heapCapacity room,
    s' = { s with entriesCapacity := entriesCapacity, freeCapacity := freeCapacity,
                  heapCapacity := heapCapacity, clientIndexRoom := room }
  free_le : s.freeCapacity ≤ s'.freeCapacity
  heap_le : s.heapCapacity ≤ s'.heapCapacity

lemma Reserves.refl (s : Scheduler) : Reserves s s :=
  ⟨⟨_, _, _, _, rfl⟩, le_rfl, le_rfl⟩

lemma Reserves.steps (r : Reserves s s') (h : Inv s) : Steps s s' [] [] := by
  obtain ⟨⟨_, _, _, _, rfl⟩, hfree, hheap⟩ := r
  exact ⟨⟨h.heaped, h.resident, h.free_nodup, h.free_iff, h.indexed, h.count_eq, h.bytes_eq,
    h.heapRoom.trans hheap, h.freeRoom.trans hfree⟩, rfl, Perm.refl _⟩

/-- What the reservations are for. -/
structure Room (s : Scheduler) (finalCount : Nat) (reusesSlot : Bool) : Prop where
  room : 0 < s.clientIndexRoom
  heapRoom : finalCount ≤ s.heapCapacity
  slot : reusesSlot = false →
    s.entries.length < s.entriesCapacity ∧ s.entries.length < s.freeCapacity

lemma reserveInstall_spec (s : Scheduler) (finalCount : Nat) (reusesSlot : Bool)
    (memory : Memory) :
    Sure (fun s' => Reserves s s' ∧ Room s' finalCount reusesSlot)
      (s.reserveInstall finalCount reusesSlot memory) := by
  unfold reserveInstall
  refine Delivers.ite (fun _ => Delivers.error (by simp)) (fun _ => ?_)
  refine Delivers.ite (fun _ => Delivers.error (by simp)) (fun _ => ?_)
  refine Delivers.ok ⟨⟨⟨_, _, _, _, rfl⟩, Nat.le_max_left _ _, Nat.le_max_left _ _⟩, ?_⟩
  refine ⟨?_, Nat.le_max_right _ _, ?_⟩
  · simp
  · rintro rfl
    simp

lemma validate_sure {α : Type} {Q : α → Prop} {x : Except Error Unit} {y : Except Error α}
    (hx : x ≠ .error .panic) (hy : Sure Q y) : Sure Q (x >>= fun _ => y) := by
  cases x with
  | error e => exact fun he => hx (he ▸ rfl)
  | ok _ => exact hy

lemma validateTopicName_ne_panic (topic : Bytes) : validateTopicName topic ≠ .error .panic := by
  unfold validateTopicName
  split <;> simp

lemma validateProperty_ne_panic (property : Property) :
    validateProperty property ≠ .error .panic := by
  unfold validateProperty
  split <;> simp

lemma validatePropertiesFrom_ne_panic (allowed repeatable : PropertyId → Bool)
    (previous properties : List Property) :
    validatePropertiesFrom allowed repeatable previous properties ≠ .error .panic := by
  induction properties generalizing previous with
  | nil => simp [validatePropertiesFrom]
  | cons property rest ih =>
    have hfirst := validateProperty_ne_panic property
    unfold validatePropertiesFrom
    split
    · rename_i e he
      rw [he] at hfirst
      exact fun hc => hfirst hc
    dsimp only
    split
    · simp
    split
    · simp
    · exact ih _

lemma validateWillProperties_ne_panic (properties : List Property) (payload : Bytes) :
    validateWillProperties properties payload ≠ .error .panic := by
  have hloop := validatePropertiesFrom_ne_panic propertyAllowedInWill repeatablePropertyInWill []
    properties
  unfold validateWillProperties
  split
  · rename_i e he
    rw [he] at hloop
    exact fun hc => hloop hc
  · unfold validatePayloadFormat
    split <;> simp

/-- A copy of a Will is a connected one, in no heap. -/
theorem prepare_spec (s : Scheduler) (clientId : Bytes) (will : LastWill)
    (sessionExpiryInterval finalCount finalBaseBytes : Nat) (memory : Memory) :
    Sure (fun prepared => prepared.clientId = clientId ∧ prepared.state = .connected ∧
      prepared.heapIndex = none)
      (s.prepare clientId will sessionExpiryInterval finalCount finalBaseBytes memory) := by
  unfold prepare
  refine validate_sure (validateTopicName_ne_panic _) ?_
  refine validate_sure (validateWillProperties_ne_panic _ _) ?_
  refine Delivers.ite (fun _ => Delivers.error (by simp)) (fun _ => ?_)
  refine Delivers.ite (fun _ => Delivers.error (by simp)) (fun _ => ?_)
  split
  · exact Delivers.error (by simp)
  split
  · exact Delivers.error (by simp)
  · exact Delivers.ite (fun _ => Delivers.error (by simp)) (fun _ => ⟨rfl, rfl, rfl⟩)

/-- **A Will that is set is accepted.** -/
theorem set_spec (h : Inv s) (clientId : Bytes) (will : LastWill) (sessionExpiryInterval : Nat)
    (memory : Memory) :
    Sure (fun r => Steps s r.2 [r.1] []) (s.set clientId will sessionExpiryInterval memory) := by
  unfold set
  refine Delivers.ite (fun _ => Delivers.error (by simp)) (fun habsent => ?_)
  refine Delivers.bind (prepare_spec s clientId will _ _ _ memory) ?_
  rintro prepared ⟨hclient, hstate, hidx⟩
  refine Delivers.bind (reserveInstall_spec s _ _ memory) ?_
  rintro reserved ⟨hreserves, hroom⟩
  have hsteps := hreserves.steps h
  obtain ⟨⟨_, _, _, _, rfl⟩, -, -⟩ := hreserves
  refine Delivers.mono (installPrepared_spec hsteps.inv ⟨?_, hroom.room, hroom.heapRoom, ?_⟩ hstate
    hidx) (fun r hr => hsteps.trans hr)
  · rw [hclient]
    exact not_isSome_iff_eq_none.mp habsent
  intro hfree
  refine hroom.slot ?_
  rw [hfree]
  rfl

/-! ### Reconnecting -/

lemma reconnectResult_spec (hplaced : entryAt s.entries i = some placed) (cleanStart : Bool)
    (nowNs : Int) :
    s.reconnectResult i cleanStart nowNs = .ok .dueNow ∨
      s.reconnectResult i cleanStart nowNs = .ok .canceled ∧ placed.state ≠ .due := by
  unfold reconnectResult
  by_cases hclean : cleanStart = true
  · simp [hclean]
  rw [if_neg hclean, unwrapEntry_eq hplaced]
  simp only [bind, Except.bind]
  cases hstate : placed.state with
  | due => exact .inl rfl
  | connected =>
    dsimp only
    split
    · exact .inr ⟨rfl, by simp⟩
    · exact .inl rfl
  | scheduled =>
    dsimp only
    split
    · exact .inr ⟨rfl, by simp⟩
    · exact .inl rfl

/-- What a reconnect does to the previous Will of the client. -/
inductive Reconnects (s : Scheduler) (clientId : Bytes) : CloseResult → Scheduler → Prop where
  | noWill (hget : s.clientIndex.get clientId = none) : Reconnects s clientId .noWill s
  | canceled {s' : Scheduler} (i : Nat) (entry : Entry) (hget : s.clientIndex.get clientId = some i)
      (he : entryAt (slots s.entries) i = some entry) (hstate : entry.state ≠ .due)
      (hclears : Clears s i entry s') : Reconnects s clientId .canceled s'
  | claimed (i : Nat) (entry : Entry) (hget : s.clientIndex.get clientId = some i)
      (he : entryAt (slots s.entries) i = some entry) (hstate : entry.state = .due) :
      Reconnects s clientId .dueNow s
  | scheduled {s' : Scheduler} (i : Nat) (entry : Entry) (deadlineNs : Int)
      (hget : s.clientIndex.get clientId = some i)
      (he : entryAt (slots s.entries) i = some entry) (hstate : entry.state ≠ .due)
      (hupdates : Updates s i entry
        { entry with state := .scheduled, deadlineNs := deadlineNs } s') :
      Reconnects s clientId .dueNow s'

lemma onReconnect_spec (h : Inv s) (connect : Connect) (nowNs : Int) :
    Sure (fun r => Reconnects s connect.clientId r.1 r.2 ∧
      s.previewReconnect connect nowNs = .ok r.1)
      (s.onReconnect connect.clientId connect.cleanStart nowNs) := by
  unfold onReconnect previewReconnect
  cases hget : s.clientIndex.get connect.clientId with
  | none => exact ⟨.noWill hget, rfl⟩
  | some i =>
    obtain ⟨entry, he, hid⟩ := h.indexed _ _ hget
    obtain ⟨placed, hplaced, -⟩ := entryAt_of_slots he
    have hsame := state_of_slots he hplaced
    dsimp only
    rw [unwrapEntry_eq hplaced]
    rcases reconnectResult_spec hplaced connect.cleanStart nowNs with hres | ⟨hres, hstate⟩
    · rw [hres]
      show Sure _ (if placed.state = .due then _ else _)
      by_cases hdue : placed.state = .due
      · rw [if_pos hdue]
        exact ⟨.claimed i entry hget he (hsame ▸ hdue), rfl⟩
      rw [if_neg hdue]
      refine Delivers.bind (makeDueNow_spec h he nowNs) ?_
      intro s' hupdates
      exact ⟨.scheduled i entry nowNs hget he (hsame ▸ hdue) hupdates, rfl⟩
    rw [hres]
    show Sure _ (s.removeAt i >>= fun s => Except.ok (CloseResult.canceled, s))
    refine Delivers.bind (removeAt_spec h he) ?_
    intro s' hclears
    exact ⟨.canceled i entry hget he (hsame ▸ hstate) hclears, rfl⟩

/-- The Will of the client, if the call reports it canceled. -/
def canceledOf (s : Scheduler) (clientId : Bytes) (result : CloseResult) : List Nat :=
  if result = .canceled then ((s.clientIndex.get clientId).bind s.serialAt).toList else []

lemma Reconnects.steps {result : CloseResult} (r : Reconnects s clientId result s') (h : Inv s) :
    Steps s s' [] (s.canceledOf clientId result) := by
  cases r with
  | noWill hget => exact Steps.refl h
  | canceled i entry hget he hstate hclears =>
    unfold canceledOf
    rw [hget, bind_some, serialAt_eq he, ← pending?_of_ne hstate]
    exact hclears.steps
  | claimed i entry hget he hstate => exact Steps.refl h
  | scheduled i entry deadlineNs hget he hstate hupdates => exact hupdates.steps_scheduled h hstate

/-! ### Taking over -/

/-- A prepared Will fits what was reserved for it. -/
structure Prepared (s : Scheduler) (connect : Connect) (preview : CloseResult) (entry : Entry) :
    Prop where
  clientId_eq : entry.clientId = connect.clientId
  connected : entry.state = .connected
  unplaced : entry.heapIndex = none
  room : Room s (s.countValue + if preview = .canceled then 0 else 1)
    (!s.freeIndices.isEmpty || decide (preview = .canceled))

lemma finalBaseBytes_sure (h : Inv s)
    (hpreview : s.previewReconnect connect nowNs = .ok preview) :
    Sure (fun _ => True) (s.finalBaseBytes connect preview) := by
  unfold finalBaseBytes
  refine Delivers.ite (fun hcanceled => ?_) (fun _ => trivial)
  cases hget : s.clientIndex.get connect.clientId with
  | none =>
    unfold previewReconnect at hpreview
    rw [hget] at hpreview
    cases hpreview
    cases hcanceled
  | some i =>
    obtain ⟨entry, he, -⟩ := h.indexed _ _ hget
    obtain ⟨placed, hplaced, hunplaced⟩ := entryAt_of_slots he
    have hbytes : placed.allocationBytes = entry.allocationBytes := by
      rw [← hunplaced]
      rfl
    obtain ⟨-, htotal⟩ := h.counters_without he
    dsimp only
    rw [unwrapEntry_eq hplaced]
    show Sure _ (if s.totalBytes < placed.allocationBytes then _ else _)
    rw [if_neg (by omega)]
    trivial

lemma prepareConnect_spec (h : Inv s) (hpreview : s.previewReconnect connect nowNs = .ok preview)
    (memory : Memory) :
    Sure (fun r => Reserves s r.2 ∧ ∀ entry, r.1 = some entry → Prepared r.2 connect preview entry)
      (s.prepareConnect connect preview memory) := by
  unfold prepareConnect
  cases connect.will with
  | none => exact ⟨Reserves.refl s, fun entry hent => (by cases hent)⟩
  | some message =>
    refine Delivers.bind (finalBaseBytes_sure h hpreview) ?_
    intro baseBytes _
    refine Delivers.bind (prepare_spec s connect.clientId message _ _ baseBytes memory) ?_
    rintro prepared ⟨hclient, hstate, hidx⟩
    refine Delivers.bind (reserveInstall_spec s _ _ memory) ?_
    rintro reserved ⟨hreserves, hroom⟩
    refine ⟨hreserves, ?_⟩
    intro entry hent
    obtain ⟨⟨_, _, _, _, rfl⟩, -, -⟩ := hreserves
    rw [← some.inj hent]
    exact ⟨hclient, hstate, hidx, hroom⟩

lemma detach_spec (h : Inv s) (handle : Handle)
    (he : entryAt s.entries handle.index = some entry) (hgen : entry.generation = handle.generation)
    (hget : s.clientIndex.get entry.clientId ≠ none) :
    Sure (fun s' => Steps s s' [] [] ∧ ∃ index, index.get entry.clientId = none ∧
      s' = { s with clientIndex := index, clientIndexRoom := s.clientIndexRoom + 1 })
      (s.detach (some handle)) := by
  have hremove := Table.get_remove s.clientIndex entry.clientId
  unfold detach
  dsimp only
  rw [getEntry_eq he hgen]
  show Sure _ (if (s.clientIndex.get entry.clientId).isNone = true then _ else _)
  rw [if_neg (by rw [isNone_iff_eq_none]; exact hget)]
  refine ⟨⟨⟨h.heaped, h.resident, h.free_nodup, h.free_iff, ?_, h.count_eq, h.bytes_eq, h.heapRoom,
    h.freeRoom⟩, rfl, ?_⟩, _, by rw [hremove, if_pos rfl], rfl⟩
  · intro clientId j hj
    rw [hremove] at hj
    obtain ⟨-, hj⟩ := of_guard hj nofun
    exact h.indexed clientId j hj
  · simp

/-- What is left to do once the previous Will is out of the way. -/
theorem installConnect_spec (h : Inv s) {prepared : Option Entry}
    (hprep : ∀ entry, prepared = some entry →
      Ready s entry.clientId ∧ entry.state = .connected ∧ entry.heapIndex = none) :
    Sure (fun r => Steps s r.2 r.1.toList []) (s.installConnect prepared) := by
  unfold installConnect
  cases prepared with
  | none => exact Steps.refl h
  | some entry =>
    obtain ⟨hready, hstate, hidx⟩ := hprep entry rfl
    refine Delivers.bind (installPrepared_spec h hready hstate hidx) ?_
    intro r hr
    exact hr

/-- The end of a takeover whose previous Will became due, now or earlier. -/
theorem takeOver_due (h : Inv s) (prepared : Option Entry)
    (hprep : ∀ entry, prepared = some entry → Prepared s connect .dueNow entry)
    (he : entryAt s.entries i = some placed) (hget : s.clientIndex.get connect.clientId = some i)
    (hclient : placed.clientId = connect.clientId) (claimed : Bool) :
    Sure (fun r => r.1.previous = CloseResult.dueNow ∧ Steps s r.2 r.1.current.toList []) (do
        let s ← s.detach (some ⟨i, placed.generation⟩)
        let (current, s) ← s.installConnect prepared
        let previousDue :=
          if CloseResult.dueNow = .dueNow ∧ claimed = false then some ⟨i, placed.generation⟩ else none
        .ok (⟨.dueNow, previousDue, current⟩, s) : Except Error (AcceptResult × Scheduler)) := by
  have hmapped : s.clientIndex.get placed.clientId ≠ none := by
    rw [hclient, hget]
    simp
  refine Delivers.bind (detach_spec h ⟨i, placed.generation⟩ he rfl hmapped) ?_
  rintro detached ⟨hsteps, index, hnone, rfl⟩
  refine Delivers.bind (installConnect_spec hsteps.inv ?_) ?_
  · intro entry hent
    have hp := hprep entry hent
    refine ⟨⟨?_, Nat.succ_pos _, hp.room.heapRoom, ?_⟩, hp.connected, hp.unplaced⟩
    · rw [hp.clientId_eq, ← hclient]
      exact hnone
    intro hfree
    refine hp.room.slot ?_
    rw [hfree]
    rfl
  · intro r hr
    exact ⟨rfl, hsteps.trans hr⟩

lemma handleForClient_eq (hget : s.clientIndex.get clientId = some i)
    (hplaced : entryAt s.entries i = some placed) :
    s.handleForClient clientId = some ⟨i, placed.generation⟩ := by
  simp [hget, hplaced, handleForClient]

lemma takeOver_spec (h : Inv s) (hpreview : s.previewReconnect connect nowNs = .ok preview)
    (claimed : Bool) (prepared : Option Entry)
    (hprep : ∀ entry, prepared = some entry → Prepared s connect preview entry) :
    Sure (fun r => r.1.previous = preview ∧
        Steps s r.2 r.1.current.toList (s.canceledOf connect.clientId preview))
      (s.takeOver connect nowNs preview (s.handleForClient connect.clientId) claimed prepared) := by
  unfold takeOver
  refine Delivers.bind (onReconnect_spec h connect nowNs) ?_
  rintro ⟨result, s'⟩ ⟨hreconnects, hres⟩
  obtain rfl : preview = result := Except.ok.inj (hpreview.symm.trans hres)
  have hsteps := hreconnects.steps h
  dsimp only
  cases hreconnects with
  | noWill hget =>
    refine Delivers.bind (show Sure (fun s₁ => s₁ = s') _ from rfl) ?_
    rintro _ rfl
    refine Delivers.bind (installConnect_spec h ?_) ?_
    · intro entry hent
      have hp := hprep entry hent
      refine ⟨⟨?_, hp.room.room, hp.room.heapRoom, ?_⟩, hp.connected, hp.unplaced⟩
      · simp [hp.clientId_eq, hget]
      intro hfree
      refine hp.room.slot ?_
      rw [hfree]
      rfl
    · intro r hr
      exact ⟨rfl, hr⟩
  | canceled i entry hget he hstate hclears =>
    refine Delivers.bind (show Sure (fun s₁ => s₁ = s') _ from rfl) ?_
    rintro _ rfl
    refine Delivers.bind (installConnect_spec hsteps.inv ?_) ?_
    · intro entry' hent
      have hp := hprep entry' hent
      obtain ⟨found, hfound, hid⟩ := h.indexed _ _ hget
      have hclient : entry.clientId = connect.clientId := by
        rw [he] at hfound
        rw [some.inj hfound, hid]
      have hcount := hclears.count_eq
      have hheap := hp.room.heapRoom
      have hroom := hclears.room_le
      have hpos := hp.room.room
      refine ⟨⟨?_, by omega, ?_, fun hfree => absurd hfree hclears.free⟩, hp.connected, hp.unplaced⟩
      · rw [hp.clientId_eq, ← hclient]
        exact hclears.absent (hclient ▸ hget)
      rw [hclears.heapCapacity_eq]
      omega
    intro r hr
    refine ⟨rfl, ?_⟩
    have htrans := hsteps.trans hr
    rw [append_nil] at htrans
    exact htrans
  | claimed i entry hget he hstate =>
    obtain ⟨placed, hplaced, hunplaced⟩ := entryAt_of_slots he
    obtain ⟨found, hfound, hid⟩ := h.indexed _ _ hget
    have hclient : placed.clientId = connect.clientId := by
      rw [he] at hfound
      rw [← hid, ← some.inj hfound, ← hunplaced]
      rfl
    rw [handleForClient_eq hget hplaced]
    exact takeOver_due h prepared hprep hplaced hget hclient claimed
  | scheduled i entry deadlineNs hget he hstate hupdates =>
    obtain ⟨placed, hplaced, hunplaced⟩ := entryAt_of_slots he
    obtain ⟨found, hfound, hid⟩ := h.indexed _ _ hget
    have hidx : s'.clientIndex = s.clientIndex :=
      field_eq Scheduler.clientIndex (fun _ => rfl) hupdates.books
    have hfree : s'.freeIndices = s.freeIndices :=
      field_eq Scheduler.freeIndices (fun _ => rfl) hupdates.books
    have hcount : s'.countValue = s.countValue :=
      field_eq Scheduler.countValue (fun _ => rfl) hupdates.books
    have hat := hupdates.entryAt_eq i
    rw [if_pos rfl] at hat
    obtain ⟨placed', hplaced', hunplaced'⟩ := entryAt_of_slots hat
    have hgen : placed'.generation = placed.generation := by
      have hnew : placed'.generation = entry.generation := by
        show placed'.unplaced.generation = _
        rw [hunplaced']
      rw [hnew, ← hunplaced]
      rfl
    have hclient : placed'.clientId = connect.clientId := by
      have hnew : placed'.clientId = entry.clientId := by
        show placed'.unplaced.clientId = _
        rw [hunplaced']
      rw [he] at hfound
      rw [hnew, some.inj hfound, hid]
    rw [handleForClient_eq hget hplaced, ← hgen]
    refine Delivers.mono (takeOver_due hsteps.inv prepared ?_ hplaced' (hidx ▸ hget) hclient
      claimed) ?_
    · intro entry' hent
      obtain ⟨hid', hconn, hunpl, hroom⟩ := hprep entry' hent
      refine ⟨hid', hconn, hunpl, ?_, ?_, ?_⟩
      · rw [field_eq Scheduler.clientIndexRoom (fun _ => rfl) hupdates.books]
        exact hroom.room
      · rw [hcount, field_eq Scheduler.heapCapacity (fun _ => rfl) hupdates.books]
        exact hroom.heapRoom
      rw [hfree, hupdates.length_eq,
        field_eq Scheduler.entriesCapacity (fun _ => rfl) hupdates.books,
        field_eq Scheduler.freeCapacity (fun _ => rfl) hupdates.books]
      exact hroom.slot
    · rintro r ⟨hprev, hr⟩
      exact ⟨hprev, hsteps.trans hr⟩

/-- **A connection takes over its client's Will, and installs its own.** -/
theorem acceptConnect_spec (h : Inv s) (connect : Connect) (nowNs : Int) (memory : Memory) :
    Sure (fun r => Steps s r.2 r.1.current.toList (s.canceledOf connect.clientId r.1.previous))
      (s.acceptConnect connect nowNs memory) := by
  have hpreview : Sure (fun preview => s.previewReconnect connect nowNs = .ok preview)
      (s.previewReconnect connect nowNs) := by
    unfold previewReconnect
    cases hget : s.clientIndex.get connect.clientId with
    | none => exact rfl
    | some i =>
      obtain ⟨entry, he, -⟩ := h.indexed _ _ hget
      obtain ⟨placed, hplaced, -⟩ := entryAt_of_slots he
      dsimp only
      rw [unwrapEntry_eq hplaced]
      rcases reconnectResult_spec hplaced connect.cleanStart nowNs with hr | ⟨hr, -⟩
      · rw [hr]
        exact rfl
      · rw [hr]
        exact rfl
  unfold acceptConnect
  refine Delivers.bind hpreview ?_
  intro preview hpreview
  refine Delivers.bind (prepareConnect_spec h hpreview memory) ?_
  rintro ⟨prepared, reserved⟩ ⟨hreserves, hprep⟩
  have hsteps := hreserves.steps h
  obtain ⟨⟨_, _, _, _, rfl⟩, -, -⟩ := hreserves
  refine Delivers.mono (takeOver_spec hsteps.inv hpreview _ prepared hprep) ?_
  rintro r ⟨hprev, hr⟩
  rw [hprev]
  exact hsteps.trans hr

/-! ### Closing -/

/-- The Will of the handle, if the call reports it canceled. -/
def canceledAt (s : Scheduler) (index : Nat) (result : CloseResult) : List Nat :=
  if result = .canceled then (s.serialAt index).toList else []

/-- **The close of a connection.** -/
theorem close_spec (h : Inv s) (handle : Handle) (reason : CloseReason) (nowNs : Int) :
    Sure (fun r => Steps s r.2 [] (s.canceledAt handle.index r.1)) (s.close handle reason nowNs) := by
  unfold close
  refine Delivers.bind (getEntry_sure s handle) ?_
  rintro placed ⟨hplaced, -⟩
  have he := slots_of_entryAt hplaced
  refine Delivers.ite (fun _ => Steps.refl h) (fun hdue => ?_)
  refine Delivers.ite (fun _ => Steps.refl h) (fun hscheduled => ?_)
  have hnow : Sure (fun s' => Steps s s' [] []) (s.makeDueNow handle.index nowNs) :=
    (makeDueNow_spec h he nowNs).mono fun s' hu => hu.steps_scheduled h hdue
  cases reason with
  | normalDisconnect =>
    refine Delivers.bind (removeAt_spec h he) ?_
    intro s' hclears
    have hpend : placed.unplaced.pending? = some placed.unplaced.serial := pending?_of_ne hdue
    have hsteps := hclears.steps
    rw [hpend] at hsteps
    show Steps s s' [] (s.canceledAt handle.index .canceled)
    unfold canceledAt
    rw [serialAt_eq he]
    exact hsteps
  | sessionEnded => exact Delivers.bind hnow fun s' hs => hs
  | disconnectWithWill | ungraceful =>
    have hout : handle.index ∉ s.heap := by
      rw [h.resident _ _ he]
      intro hstate
      exact hscheduled ⟨hstate, by simp⟩
    refine Delivers.ite (fun _ => Delivers.bind hnow fun s' hs => hs) (fun _ => ?_)
    refine Delivers.bind (schedule_spec h hplaced hout _) ?_
    intro s' hu
    rw [show placed.unplaced = placed from ?_] at he
    · exact hu.steps_scheduled h hdue
    · exact some.inj ((slots_of_entryAt hplaced).symm.trans hu.old)

lemma overrideExpiry_spec (h : Inv s) (he : entryAt s.entries i = some entry)
    (packet : Disconnect) :
    Sure (fun s' => Steps s s' [] [] ∧ s'.serialAt i = s.serialAt i)
      (s.overrideExpiry i entry packet) := by
  unfold overrideExpiry
  refine Delivers.ite (fun hconn => ?_) (fun _ => ⟨Steps.refl h, rfl⟩)
  cases sessionExpiryInterval packet.properties with
  | none => exact ⟨Steps.refl h, rfl⟩
  | some newExpiry =>
    refine Delivers.ite (fun _ => Delivers.error (by simp)) (fun _ => ?_)
    have hout : i ∉ s.heap := by
      rw [h.resident i _ (slots_of_entryAt he)]
      show entry.state ≠ .scheduled
      rw [hconn]
      simp
    have hidx := heapIndex_none h.heaped he hout
    have hslot : entryAt (slots s.entries) i = some entry := by
      rw [slots_of_entryAt he]
      cases entry
      cases hidx
      rfl
    have hu : Updates s i entry { entry with sessionExpiryInterval := newExpiry }
        (s.putEntry i { entry with sessionExpiryInterval := newExpiry }) := by
      refine ⟨hslot, ?_, putEntry_heaped h.heaped he hout hidx, fun _ _ => Iff.rfl, ?_, rfl⟩
      · show slots (s.entries.set i (some _)) = _
        rw [slots_set]
        cases entry
        cases hidx
        rfl
      · exact h.resident i entry hslot
    have hat := hu.entryAt_eq i
    rw [if_pos rfl] at hat
    refine ⟨hu.steps h rfl rfl (append_nil _).symm, ?_⟩
    rw [serialAt_eq hat, serialAt_eq hslot]

lemma closeDisconnect_spec (h : Inv s) (handle : Handle) (packet : Disconnect) (nowNs : Int) :
    Sure (fun r => Steps s r.2 [] (s.canceledAt handle.index r.1))
      (s.closeDisconnect handle packet nowNs) := by
  unfold closeDisconnect
  refine Delivers.bind (getEntry_sure s handle) ?_
  rintro placed ⟨hplaced, -⟩
  refine Delivers.bind (overrideExpiry_spec h hplaced packet) ?_
  rintro s₁ ⟨hsteps, hserial⟩
  refine Delivers.mono (close_spec hsteps.inv handle _ nowNs) ?_
  intro r hr
  have htrans := hsteps.trans hr
  unfold canceledAt at htrans ⊢
  rw [← hserial]
  exact htrans

/-- **A Will that was handed out is freed, and was resolved before.** -/
theorem releaseDue_spec (h : Inv s) (handle : Handle) :
    Sure (fun r => Steps s r.2 [] []) (s.releaseDue handle) := by
  unfold releaseDue
  refine Delivers.bind (getEntry_sure s handle) ?_
  rintro placed ⟨hplaced, -⟩
  have he := slots_of_entryAt hplaced
  refine Delivers.ite (fun _ => Delivers.error (by simp)) (fun hdue => ?_)
  refine Delivers.bind (removeAt_spec h he) ?_
  intro s' hclears
  have hsteps := hclears.steps
  have hstate : placed.unplaced.state = .due := by
    by_contra hne
    exact hdue (.inl hne)
  unfold Entry.pending? at hsteps
  rw [if_pos hstate] at hsteps
  exact hsteps

end Netz.Mqtt.Will.Scheduler
