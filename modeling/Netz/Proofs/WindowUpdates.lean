/-
When a call of `sendWindowUpdates` leaves the receive windows as its answer says.

Both windows grow by what is written for them, or the call fails and neither changes.  But the
connection's increment is not taken back where the stream's is refused, and neither is where the
write fails.
-/
import Netz.Http2.Connection

namespace Netz.Http2

open Lib

lemma update_eq (window : FlowWindow) (increment : Nat) :
    window.update increment =
      if maxFlowWindow < window.value + increment then .error .flowControlViolation
      else .ok { value := window.value + increment } := by
  unfold FlowWindow.update maxI64 maxFlowWindow
  dsimp only
  by_cases hfar : 2 ^ 63 - 1 < window.value + increment
  · rw [if_pos hfar, if_pos (by omega)]
  · rw [if_neg hfar]

namespace Connection

variable (c : Connection) (io : Io)

/-- The credit of a stream; where it has no window yet, that of the one it begins with. -/
def credit (windows : Table Nat FlowWindow) (streamId : Nat) : Int :=
  ((windows.get streamId).getD { value := c.initialWindowSize }).value

/-- **All or nothing**: the windows after a call that answers `result`. -/
def Atomic (streamId connectionIncrement streamIncrement : Option Nat)
    (result : Except Error Unit) (c' : Connection) : Prop :=
  match result with
  | .error _ =>
    c'.recvConnectionWindow.value = c.recvConnectionWindow.value ∧
      ∀ id, c.credit c'.recvStreamWindows id = c.credit c.recvStreamWindows id
  | .ok () =>
    c'.recvConnectionWindow.value =
        c.recvConnectionWindow.value + (connectionIncrement.getD 0 : Nat) ∧
      (∀ id, c.credit c'.recvStreamWindows id = c.credit c.recvStreamWindows id +
        (if id = streamId.getD 0 then streamIncrement.getD 0 else 0 : Nat)) ∧
      c'.written = c.written ++ (connectionIncrement.elim [] (encodeWindowUpdateFrame 0) ++
        streamIncrement.elim [] (encodeWindowUpdateFrame (streamId.getD 0)))

/-- The stream's window cannot be made, or does not take the increment. -/
def StreamRefuses (streamId : Nat) (increment : Option Nat) : Prop :=
  ∃ amount, increment = some amount ∧ (streamId = 0 ∨
    (c.recvStreamWindows.get streamId = none ∧ io.allocated = false) ∨
    maxFlowWindow < c.credit c.recvStreamWindows streamId + amount)

lemma recvStreamWindow_cases (streamId : Nat) :
    (∃ e, c.recvStreamWindow io streamId = .error e ∧
      (streamId = 0 ∨ (c.recvStreamWindows.get streamId = none ∧ io.allocated = false))) ∨
    ∃ window windows, c.recvStreamWindow io streamId = .ok (window, windows) ∧
      streamId ≠ 0 ∧ (c.recvStreamWindows.get streamId = none → io.allocated = true) ∧
      windows.get streamId = some window ∧
      ∀ id, c.credit windows id = c.credit c.recvStreamWindows id := by
  unfold recvStreamWindow
  by_cases hzero : streamId = 0
  · rw [if_pos hzero]
    exact .inl ⟨_, rfl, .inl hzero⟩
  rw [if_neg hzero]
  cases hget : c.recvStreamWindows.get streamId with
  | some window => exact .inr ⟨window, _, rfl, hzero, nofun, hget, fun _ => rfl⟩
  | none =>
    cases halloc : io.allocated with
    | false => exact .inl ⟨_, rfl, .inr ⟨rfl, rfl⟩⟩
    | true =>
      have hput := Table.get_put hget ({ value := c.initialWindowSize } : FlowWindow)
      refine .inr ⟨_, _, rfl, hzero, fun _ => rfl, by rw [hput, if_pos rfl], fun id => ?_⟩
      unfold credit
      rw [hput]
      by_cases hid : id = streamId
      · simp [hid, hget]
      · rw [if_neg hid]

lemma raiseStream_cases (streamId : Nat) (increment : Option Nat) :
    (∃ e windows, c.raiseStream io streamId increment = (.error e, windows) ∧
      c.StreamRefuses io streamId increment ∧
      ∀ id, c.credit windows id = c.credit c.recvStreamWindows id) ∨
    ∃ windows, c.raiseStream io streamId increment =
        (.ok (increment.elim [] (encodeWindowUpdateFrame streamId)), windows) ∧
      ¬ c.StreamRefuses io streamId increment ∧
      ∀ id, c.credit windows id = c.credit c.recvStreamWindows id +
        (if id = streamId then increment.getD 0 else 0 : Nat) := by
  cases increment with
  | none => exact .inr ⟨_, rfl, nofun, fun id => by simp⟩
  | some amount =>
    unfold raiseStream
    dsimp only
    rcases c.recvStreamWindow_cases io streamId with ⟨e, hrecv, hrefused⟩ |
      ⟨window, windows, hrecv, hzero, halloc, hget, hsame⟩
    · rw [hrecv]
      refine .inl ⟨e, _, rfl, ⟨amount, rfl, ?_⟩, fun _ => rfl⟩
      exact hrefused.imp_right .inl
    have hcred : window.value = c.credit c.recvStreamWindows streamId := by
      rw [← hsame, credit, hget]
      rfl
    rw [hrecv]
    dsimp only
    rw [update_eq, hcred]
    by_cases hover : maxFlowWindow < c.credit c.recvStreamWindows streamId + amount
    · rw [if_pos hover]
      exact .inl ⟨_, windows, rfl, ⟨amount, rfl, .inr (.inr hover)⟩, hsame⟩
    rw [if_neg hover]
    refine .inr ⟨_, rfl, ?_, fun id => ?_⟩
    · rintro ⟨_, hsome, h | ⟨hnone, hfailed⟩ | h⟩
      · exact hzero h
      · exact absurd (halloc hnone) (by rw [hfailed]; decide)
      · cases hsome
        exact hover h
    · rw [← hcred, ← hsame id, credit, credit, Table.get_assign]
      by_cases hid : id = streamId
      · simp [hid, hget]
      · simp [hid]

/-- **A call is atomic just when nothing fails behind an increment that was made**: it is refused
before the connection's window is raised, or the stream refuses and the connection has no increment,
or the write succeeds or has nothing to announce. -/
theorem sendWindowUpdates_atomic_iff (streamId connectionIncrement streamIncrement : Option Nat) :
    c.Atomic streamId connectionIncrement streamIncrement
        (c.sendWindowUpdates io streamId connectionIncrement streamIncrement).1
        (c.sendWindowUpdates io streamId connectionIncrement streamIncrement).2 ↔
      c.lacksStream streamId streamIncrement = true ∨
      (∃ amount, connectionIncrement = some amount ∧
        maxFlowWindow < c.recvConnectionWindow.value + amount) ∨
      (c.StreamRefuses io (streamId.getD 0) streamIncrement → connectionIncrement.getD 0 = 0) ∧
      (¬ c.StreamRefuses io (streamId.getD 0) streamIncrement → io.written = true ∨
        connectionIncrement.getD 0 = 0 ∧ streamIncrement.getD 0 = 0) := by
  unfold sendWindowUpdates
  by_cases hnone : connectionIncrement = none ∧ streamIncrement = none
  · obtain ⟨rfl, rfl⟩ := hnone
    refine iff_of_true ⟨?_, fun id => ?_, ?_⟩ (.inr (.inr ⟨fun _ => rfl, fun _ => .inr ⟨rfl, rfl⟩⟩))
    · simp
    · simp
    · simp
  rw [if_neg hnone]
  by_cases hlacks : c.lacksStream streamId streamIncrement = true
  · rw [if_pos hlacks]
    exact iff_of_true ⟨rfl, fun _ => rfl⟩ (.inl hlacks)
  rw [if_neg hlacks, or_iff_right hlacks]
  by_cases hover : ∃ amount, connectionIncrement = some amount ∧
      maxFlowWindow < c.recvConnectionWindow.value + amount
  · obtain ⟨amount, rfl, hmax⟩ := hover
    rw [raiseConnection, update_eq, if_pos hmax]
    exact iff_of_true ⟨rfl, fun _ => rfl⟩ (.inl ⟨amount, rfl, hmax⟩)
  have hraise : c.raiseConnection connectionIncrement =
      .ok ({ value := c.recvConnectionWindow.value + (connectionIncrement.getD 0 : Nat) },
        connectionIncrement.elim [] (encodeWindowUpdateFrame 0)) := by
    cases connectionIncrement with
    | none => simp [raiseConnection]
    | some amount =>
      rw [raiseConnection, update_eq, if_neg fun hmax => hover ⟨amount, rfl, hmax⟩]
      rfl
  rw [hraise, or_iff_right hover]
  dsimp only
  rcases c.raiseStream_cases io (streamId.getD 0) streamIncrement with
    ⟨e, windows, hstream, hrefused, hsame⟩ | ⟨windows, hstream, hrefused, hgrown⟩
  · rw [hstream]
    constructor
    · rintro ⟨hback, -⟩
      exact ⟨fun _ => by dsimp only at hback; omega, fun hno => absurd hrefused hno⟩
    · rintro ⟨hback, -⟩
      exact ⟨by simp [hback hrefused], hsame⟩
  rw [hstream]
  cases hio : io.written with
  | true =>
    exact iff_of_true ⟨rfl, hgrown, rfl⟩ ⟨fun h => absurd h hrefused, fun _ => .inl rfl⟩
  | false =>
    constructor
    · rintro ⟨hback, hkept⟩
      have hvalue := (hkept (streamId.getD 0)).symm.trans (hgrown (streamId.getD 0))
      rw [if_pos rfl] at hvalue
      simp only [Bool.false_eq_true, if_false] at hback
      exact ⟨fun h => absurd h hrefused, fun _ => .inr ⟨by omega, by omega⟩⟩
    · rintro ⟨-, h⟩
      rcases h hrefused with hyes | ⟨hback, hno⟩
      · cases hyes
      · exact ⟨by simp [hback], fun id => by simpa [hno] using hgrown id⟩

/-- The connection's window stays raised where the stream's window cannot be made. -/
theorem sendWindowUpdates_not_atomic :
    ¬ ({ activeStreams := [1] } : Connection).Atomic (some 1) (some 10) (some 10)
      (({ activeStreams := [1] } : Connection).sendWindowUpdates { allocated := false } (some 1)
        (some 10) (some 10)).1
      (({ activeStreams := [1] } : Connection).sendWindowUpdates { allocated := false } (some 1)
        (some 10) (some 10)).2 := by
  rintro ⟨hkept, -⟩
  exact absurd hkept (by decide)

end Connection

end Netz.Http2
