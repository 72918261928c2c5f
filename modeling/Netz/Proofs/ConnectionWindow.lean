/-
The counters of a connection agree with its bit sets.

An identifier enters a set together with the counter's step up, and a counter steps down only
behind the test that the identifier is there; `Counted` says so for each half.  A reservation is
a cyclic search over the three outgoing sets, which together hold as many identifiers as the
counter says.
-/
import Netz.Mqtt.ConnectionWindow
import Netz.Proofs.Session

namespace Netz.Mqtt

open Lib Finset

variable {qos : QoS} {packetId reasonCode : Nat} {packetType : PacketType}

/-! ### What is sent -/

namespace Connection

variable {connection : Connection}

structure Counted (connection : Connection) : Prop where
  count : connection.outgoingInflight = connection.outgoingQos1.card +
    connection.outgoingQos2.card + connection.outgoingQos2Pubrel.card
  qos1 : Disjoint connection.outgoingQos1 connection.outgoingQos2
  qos1Pubrel : Disjoint connection.outgoingQos1 connection.outgoingQos2Pubrel
  qos2Pubrel : Disjoint connection.outgoingQos2 connection.outgoingQos2Pubrel
  window : connection.outgoingInflight ≤ connection.maxOutgoingInflight

/-- The search starts at an identifier there is. -/
structure Ready (connection : Connection) : Prop extends Counted connection where
  bounded : connection.maxOutgoingInflight ≤ maxU16
  next : 1 ≤ connection.nextPacketId ∧ connection.nextPacketId ≤ maxU16

lemma Ready.take (h : Ready connection) (hfree : connection.uses packetId = false)
    (hroom : connection.outgoingInflight < connection.maxOutgoingInflight) :
    Ready (connection.take qos packetId) := by
  unfold uses at hfree
  simp only [Bool.or_eq_false_iff, decide_eq_false_iff_not] at hfree
  obtain ⟨⟨h1, h2⟩, hpubrel⟩ := hfree
  have hcount := h.count
  cases qos with
  | atMostOnce => exact h
  | atLeastOnce =>
    refine ⟨⟨?_, ?_, ?_, h.qos2Pubrel, hroom⟩, h.bounded, h.next⟩
    · simp only [Connection.take, card_insert_of_notMem h1]
      omega
    · exact disjoint_insert_left.mpr ⟨h2, h.qos1⟩
    · exact disjoint_insert_left.mpr ⟨hpubrel, h.qos1Pubrel⟩
  | exactlyOnce =>
    refine ⟨⟨?_, ?_, h.qos1Pubrel, ?_, hroom⟩, h.bounded, h.next⟩
    · simp only [Connection.take, card_insert_of_notMem h2]
      omega
    · exact disjoint_insert_right.mpr ⟨h1, h.qos1⟩
    · exact disjoint_insert_left.mpr ⟨hpubrel, h.qos2Pubrel⟩

lemma reserveLoop_eq {attempts : Nat}
    (hnext : 1 ≤ connection.nextPacketId ∧ connection.nextPacketId ≤ maxU16) :
    reserveLoop qos attempts connection =
      let found := findFree maxU16 connection.uses attempts connection.nextPacketId
      let moved := { connection with nextPacketId := found.2 }
      match found.1 with
      | none => (.error .inflightFull, moved)
      | some packetId => (.ok packetId, moved.take qos packetId) := by
  induction attempts generalizing connection with
  | zero => rfl
  | succ attempts ih =>
    unfold reserveLoop findFree
    have hsame : Connection.uses { connection with
        nextPacketId := following maxU16 connection.nextPacketId } = connection.uses := rfl
    simp only [Session.followingPacketId_eq hnext, hsame]
    by_cases hused : connection.uses connection.nextPacketId = true
    · rw [if_pos hused, if_pos hused]
      exact ih (following_bounded hnext)
    · rw [if_neg hused, if_neg hused]

/-- The identifiers in use are as many as the counter says. -/
theorem Ready.search (h : Ready connection)
    (hroom : connection.outgoingInflight < connection.maxOutgoingInflight) :
    ∃ packetId, (findFree maxU16 connection.uses maxU16 connection.nextPacketId).1 =
      some packetId := by
  refine @findFree_room _ _ _ h.next (connection.outgoingQos1 ∪ connection.outgoingQos2 ∪
    connection.outgoingQos2Pubrel) ?_ ?_
  · intro id hused
    simpa [uses, or_assoc] using hused
  have hunion := card_union_le (connection.outgoingQos1 ∪ connection.outgoingQos2)
    connection.outgoingQos2Pubrel
  have hinner := card_union_le connection.outgoingQos1 connection.outgoingQos2
  have hcount := h.count
  have hbnd := h.bounded
  omega

/-- **A reservation fails in a full window only.** -/
theorem Ready.reserve (h : Ready connection) (qos : QoS) :
    Ready (connection.reserveOutgoingPublish qos).2 ∧
      ∀ e, (connection.reserveOutgoingPublish qos).1 = .error e →
        connection.maxOutgoingInflight ≤ connection.outgoingInflight := by
  unfold reserveOutgoingPublish
  by_cases hfull : connection.maxOutgoingInflight ≤ connection.outgoingInflight
  · rw [if_pos hfull]
    exact ⟨h, fun _ _ => hfull⟩
  rw [if_neg hfull, reserveLoop_eq h.next]
  obtain ⟨packetId, hfound⟩ := h.search (not_le.mp hfull)
  have hmoved : Ready { connection with
      nextPacketId := (findFree maxU16 connection.uses maxU16 connection.nextPacketId).2 } :=
    ⟨⟨h.count, h.qos1, h.qos1Pubrel, h.qos2Pubrel, h.window⟩, h.bounded,
      findFree_bounded h.next⟩
  dsimp only
  rw [hfound]
  exact ⟨hmoved.take (findFree_some h.next hfound).2 (not_le.mp hfull), nofun⟩

lemma Ready.release (h : Ready connection) (packetId : Nat) (qos : QoS) :
    Ready (connection.releaseOutgoingPublish packetId qos) ∧
      (connection.releaseOutgoingPublish packetId qos = connection ∨
        0 < connection.outgoingInflight) := by
  have hcount := h.count
  have hwin := h.window
  unfold releaseOutgoingPublish
  cases qos with
  | atMostOnce => exact ⟨h, .inl rfl⟩
  | atLeastOnce =>
    by_cases h1 : packetId ∈ connection.outgoingQos1
    · dsimp only
      rw [if_pos h1]
      have hpos := card_pos.mpr ⟨packetId, h1⟩
      refine ⟨⟨⟨?_, h.qos1.mono_left (erase_subset _ _),
        h.qos1Pubrel.mono_left (erase_subset _ _), h.qos2Pubrel, ?_⟩, h.bounded, h.next⟩,
        .inr ?_⟩
      · simp only [card_erase_of_mem h1]
        omega
      · dsimp only
        omega
      · omega
    dsimp only
    rw [if_neg h1]
    exact ⟨h, .inl rfl⟩
  | exactlyOnce =>
    dsimp only
    by_cases hpubrel : packetId ∈ connection.outgoingQos2Pubrel
    · rw [if_pos hpubrel]
      have hpos := card_pos.mpr ⟨packetId, hpubrel⟩
      refine ⟨⟨⟨?_, h.qos1, h.qos1Pubrel.mono_right (erase_subset _ _),
        h.qos2Pubrel.mono_right (erase_subset _ _), ?_⟩, h.bounded, h.next⟩, .inr ?_⟩
      · simp only [card_erase_of_mem hpubrel]
        omega
      · dsimp only
        omega
      · omega
    rw [if_neg hpubrel]
    by_cases h2 : packetId ∈ connection.outgoingQos2
    · rw [if_pos h2]
      have hpos := card_pos.mpr ⟨packetId, h2⟩
      refine ⟨⟨⟨?_, h.qos1.mono_right (erase_subset _ _), h.qos1Pubrel,
        h.qos2Pubrel.mono_left (erase_subset _ _), ?_⟩, h.bounded, h.next⟩, .inr ?_⟩
      · simp only [card_erase_of_mem h2]
        omega
      · dsimp only
        omega
      · omega
    · rw [if_neg h2]
      exact ⟨h, .inl rfl⟩

lemma Ready.writePublish (h : Ready connection) (qos : QoS) (retain : Bool)
    (outcome : WriteOutcome) : Ready (connection.writePublish qos retain outcome).2 := by
  unfold Connection.writePublish
  by_cases hqos : connection.peerMaximumQos.level < qos.level
  · rw [if_pos hqos]
    exact h
  rw [if_neg hqos]
  by_cases hretain : (retain && !connection.peerRetainAvailable) = true
  · rw [if_pos hretain]
    exact h
  rw [if_neg hretain]
  by_cases hnone : qos = .atMostOnce
  · rw [if_pos hnone]
    cases outcome <;> exact h
  rw [if_neg hnone]
  have hres := (h.reserve qos).1
  rcases hreserved : connection.reserveOutgoingPublish qos with ⟨e | packetId, reserved⟩
  · rw [hreserved] at hres
    exact hres
  rw [hreserved] at hres
  have hrel := (hres.release packetId qos).1
  cases outcome with
  | sent => exact hres
  | unencoded | tooLarge | failed | forgotten => exact hrel

/-- An acknowledgement releases its identifier or moves it on to PUBREL. -/
theorem Ready.applyAck (h : Ready connection) (packetType : PacketType)
    (packetId reasonCode : Nat) (written : Bool) :
    Ready (connection.applyAck packetType packetId reasonCode written).2 := by
  have hrel := fun qos => (h.release packetId qos).1
  have hcount := h.count
  unfold Connection.applyAck
  split
  · unfold applyPubAck
    split
    · exact h
    · dsimp only
      split <;> exact hrel .atLeastOnce
  · unfold applyPubRec
    split
    · exact h
    rename_i hmem
    rw [not_not] at hmem
    split
    · exact hrel .exactlyOnce
    split
    · exact h
    have h1 := disjoint_right.mp h.qos1 hmem
    have hpubrel := disjoint_left.mp h.qos2Pubrel hmem
    have hpos := card_pos.mpr ⟨packetId, hmem⟩
    refine ⟨⟨?_, h.qos1.mono_right (erase_subset _ _),
      disjoint_insert_right.mpr ⟨h1, h.qos1Pubrel⟩, disjoint_insert_right.mpr
        ⟨notMem_erase _ _, h.qos2Pubrel.mono_left (erase_subset _ _)⟩, h.window⟩,
      h.bounded, h.next⟩
    simp only [card_erase_of_mem hmem, card_insert_of_notMem hpubrel]
    omega
  · unfold applyPubComp
    split
    · exact h
    · dsimp only
      split <;> exact hrel .exactlyOnce
  · exact h

end Connection

/-! ### What is received -/

namespace IncomingWindow

variable {window : IncomingWindow}

structure Counted (window : IncomingWindow) : Prop where
  count : window.incomingInflight = window.incomingQos1.card + window.incomingQos2.card
  window : window.incomingInflight ≤ window.maxIncomingInflight

lemma Counted.record (h : Counted window) (qos : QoS) (packetId : Option Nat) :
    Counted (window.recordIncomingPublish qos packetId).2 := by
  have hcount := h.count
  unfold recordIncomingPublish
  split
  · exact h
  · exact h
  all_goals
    split
    · exact h
    split
    · exact h
    rename_i hnew
    split
    · exact h
    rename_i hroom
    refine ⟨?_, not_le.mp hroom⟩
    simp only [card_insert_of_notMem hnew]
    omega

lemma Counted.complete (h : Counted window) (packetType : PacketType) (packetId : Nat) :
    Counted (window.completeIncomingPublish packetType packetId) ∧
      (window.completeIncomingPublish packetType packetId = window ∨
        0 < window.incomingInflight) := by
  have hcount := h.count
  have hwin := h.window
  unfold completeIncomingPublish
  split
  on_goal 3 => exact ⟨h, .inl rfl⟩
  all_goals
    split
    on_goal 2 => exact ⟨h, .inl rfl⟩
    rename_i hmem
    have hpos := card_pos.mpr ⟨packetId, hmem⟩
    refine ⟨⟨?_, ?_⟩, .inr ?_⟩
    · simp only [card_erase_of_mem hmem]
      omega
    · dsimp only
      omega
    · omega

end IncomingWindow

/-! ### Runs -/

namespace ConnectionWindows

/-- What is asked of both halves; a counter that steps down is not zero. -/
structure Sound (windows : ConnectionWindows) : Prop where
  outgoing : windows.outgoing.Counted
  incoming : windows.incoming.Counted
  release : ∀ packetId qos,
    windows.outgoing.releaseOutgoingPublish packetId qos = windows.outgoing ∨
      0 < windows.outgoing.outgoingInflight
  complete : ∀ packetType packetId,
    windows.incoming.completeIncomingPublish packetType packetId = windows.incoming ∨
      0 < windows.incoming.incomingInflight
  reserve : ∀ qos e, (windows.outgoing.reserveOutgoingPublish qos).1 = .error e →
    windows.outgoing.maxOutgoingInflight ≤ windows.outgoing.outgoingInflight

lemma step_kept {windows : ConnectionWindows} (hout : windows.outgoing.Ready)
    (hin : windows.incoming.Counted) (call : WindowCall) :
    (windows.step call).outgoing.Ready ∧ (windows.step call).incoming.Counted := by
  cases call with
  | reserve qos => exact ⟨(hout.reserve qos).1, hin⟩
  | release packetId qos => exact ⟨(hout.release packetId qos).1, hin⟩
  | publish qos retain outcome => exact ⟨hout.writePublish qos retain outcome, hin⟩
  | ack packetType packetId reasonCode written =>
    exact ⟨hout.applyAck packetType packetId reasonCode written, hin⟩
  | record qos packetId => exact ⟨hout, hin.record qos packetId⟩
  | complete packetType packetId => exact ⟨hout, (hin.complete packetType packetId).1⟩
  | completePubRec packetId reasonCode =>
    refine ⟨hout, ?_⟩
    dsimp only [step, IncomingWindow.completeIncomingPubRec]
    split
    · exact (hin.complete .pubcomp packetId).1
    · exact hin

/-- **In every run of a connection its counters are the sizes of its sets.** -/
theorem run_counters_sound (maxOutgoing maxIncoming : UInt16) (calls : List WindowCall) :
    Sound ((start maxOutgoing maxIncoming).run calls) := by
  have hkept : ∀ windows : ConnectionWindows, windows.outgoing.Ready →
      windows.incoming.Counted → Sound (windows.run calls) := by
    induction calls with
    | nil =>
      intro windows hout hin
      exact ⟨hout.toCounted, hin, fun packetId qos => (hout.release packetId qos).2,
        fun packetType packetId => (hin.complete packetType packetId).2,
        fun qos => (hout.reserve qos).2⟩
    | cons call rest ih =>
      intro windows hout hin
      obtain ⟨hout', hin'⟩ := step_kept hout hin call
      exact ih _ hout' hin'
  have hmax : maxOutgoing.toNat ≤ maxU16 := Nat.le_of_lt_succ maxOutgoing.toNat_lt
  refine hkept _ ⟨⟨rfl, ?_, ?_, ?_, Nat.zero_le _⟩, hmax, Nat.le_refl 1, (by decide : 1 ≤ maxU16)⟩
    ⟨rfl, Nat.zero_le _⟩
  all_goals exact disjoint_empty_left _

end ConnectionWindows

end Netz.Mqtt
