/-
Every run of a receive window.

`Window` is the invariant: what was consumed was received, what was received was allowed, and no
counter leaves the range of a varint.  From it alone every operation of `consume` is exact
(`Exact`), so the source's `u64` arithmetic is the arithmetic of `Nat` used here.
-/
import Netz.Proofs.StreamWindow

namespace Netz.Quic.RecvFlow

open Lib

/-- What holds of a window that has started with `initialLimit`. -/
structure Window (initialLimit maxWindow : Nat) (f : RecvFlow) : Prop where
  consumed : f.consumed ≤ f.highestReceived
  received : f.highestReceived ≤ f.limit
  limit : f.limit ≤ varintMax
  window : f.window ≤ maxWindow
  /-- The maximum stays what it was. -/
  maximum : f.maxWindow = maxWindow
  largest : maxWindow ≤ varintMax
  epoch : f.autotuneEpochConsumed ≤ f.consumed
  /-- The credit that is open is never more than was asked for. -/
  credit : f.limit - f.consumed ≤ max initialLimit maxWindow

/-- What has been consumed behind `consume amount`. -/
def credited (f : RecvFlow) (amount : Nat) : Nat := min f.highestReceived (f.consumed + amount)

/-- No subtraction of `consume amount` is truncated, and no addition or product saturates. -/
structure Exact (f : RecvFlow) (amount : Nat) : Prop where
  consumed : min f.highestReceived (saturatingAdd f.consumed amount) = f.credited amount
  left : f.credited amount ≤ f.limit
  sinceEpoch : f.autotuneEpochConsumed ≤ f.credited amount
  doubled : f.window * 2 ≤ maxU64
  next : f.credited amount + f.grownWindow (f.credited amount) ≤ maxU64

variable {initialLimit maxWindow : Nat} {f : RecvFlow}

lemma Window.ordered (h : Window initialLimit maxWindow f) : f.Ordered := by
  refine ⟨h.received, h.limit, ?_, ?_⟩
  · rw [h.maximum]
    exact h.window
  · rw [h.maximum]
    exact h.largest

lemma Window.exact (h : Window initialLimit maxWindow f) (amount : Nat) : f.Exact amount := by
  have hmax : varintMax = 2 ^ 62 - 1 := rfl
  have hu64 : maxU64 = 2 ^ 64 - 1 := rfl
  have hused := h.consumed
  have hrecv := h.received
  have hlim := h.limit
  have hwin := h.window
  have hmaxWindow := h.largest
  have hepoch := h.epoch
  have hgrown := grownWindow_le h.ordered.window (f.credited amount)
  rw [h.maximum] at hgrown
  refine ⟨?_, ?_, ?_, by omega, ?_⟩
  · unfold credited saturatingAdd
    omega
  · unfold credited
    omega
  · unfold credited
    omega
  · unfold credited at hgrown ⊢
    omega

/-! ### Steps -/

lemma advanceLimit_window (h : Window initialLimit maxWindow f) :
    Window initialLimit maxWindow f.advanceLimit.2 := by
  have hmax : varintMax = 2 ^ 62 - 1 := rfl
  have hu64 : maxU64 = 2 ^ 64 - 1 := rfl
  have hconsumed := h.consumed
  have hrecv := h.received
  have hlimit := h.limit
  have hmaxWindow := h.largest
  have hcred := h.credit
  obtain ⟨hwindow', hlimit', hconsumed', hhigh', hmaximum'⟩ := maybeGrowWindow_eq f
  have hgrown := grownWindow_le h.ordered.window f.consumed
  rw [h.maximum] at hgrown
  have hepoch' : f.maybeGrowWindow.autotuneEpochConsumed ≤ f.consumed := by
    unfold maybeGrowWindow
    by_cases hfull : f.maxWindow ≤ f.window
    · rw [if_pos hfull]
      exact h.epoch
    rw [if_neg hfull]
    by_cases hslow : f.consumed - f.autotuneEpochConsumed ≤ f.window / 4
    · rw [if_pos hslow]
      exact h.epoch
    · rw [if_neg hslow]
  have hsat : saturatingAdd f.consumed (f.grownWindow f.consumed) =
      f.consumed + f.grownWindow f.consumed := by
    unfold saturatingAdd
    omega
  have hgrow : Window initialLimit maxWindow f.maybeGrowWindow := by
    refine ⟨?_, ?_, ?_, ?_, hmaximum'.trans h.maximum, hmaxWindow, ?_, ?_⟩
    · omega
    · omega
    · omega
    · omega
    · omega
    · omega
  unfold advanceLimit
  by_cases hhalf : f.limit - f.consumed ≤ f.window / 2
  · rw [if_pos hhalf]
    simp only [hconsumed', hwindow', hlimit', hsat]
    by_cases hkeep : min (f.consumed + f.grownWindow f.consumed) varintMax ≤ f.limit
    · simp [hkeep, hgrow]
    rw [if_neg hkeep]
    refine ⟨?_, ?_, Nat.min_le_right _ _, hgrown, hmaximum'.trans h.maximum, hmaxWindow, hepoch',
      ?_⟩
    · simp [hhigh', hconsumed]
    · show f.maybeGrowWindow.highestReceived ≤ min (f.consumed + f.grownWindow f.consumed) varintMax
      omega
    -- The new credit is one window.
    show min (f.consumed + f.grownWindow f.consumed) varintMax - f.consumed ≤ _
    omega
  · simp [hhalf, h]

lemma consume_window (h : Window initialLimit maxWindow f) (amount : Nat) :
    Window initialLimit maxWindow (f.consume amount).2 := by
  have hrecv := h.received
  have hepoch := h.epoch
  have hcred := h.credit
  have hexact := (h.exact amount).consumed
  unfold consume
  by_cases hzero : amount = 0
  · simp [hzero, h]
  rw [if_neg hzero]
  by_cases hall : f.highestReceived ≤ f.consumed
  · simp [hall, h]
  rw [if_neg hall, hexact]
  refine advanceLimit_window ⟨Nat.min_le_left _ _, hrecv, h.limit, h.window, h.maximum,
    h.largest, ?_, ?_⟩
  · show f.autotuneEpochConsumed ≤ f.credited amount
    unfold credited
    omega
  show f.limit - f.credited amount ≤ _
  unfold credited
  omega

lemma receive_window {f' : RecvFlow} {endOffset : Nat} (h : Window initialLimit maxWindow f)
    (hok : f.receive endOffset = .ok f') : Window initialLimit maxWindow f' := by
  unfold receive at hok
  obtain ⟨hover, hok⟩ := of_guard hok nofun
  by_cases hold : endOffset ≤ f.highestReceived
  · rw [if_pos hold, Except.ok.injEq] at hok
    rw [← hok]
    exact h
  rw [if_neg hold, Except.ok.injEq] at hok
  have hused := h.consumed
  rw [← hok]
  refine ⟨?_, ?_, h.limit, h.window, h.maximum, h.largest, h.epoch, h.credit⟩
  · show f.consumed ≤ endOffset
    omega
  · show endOffset ≤ f.limit
    omega

lemma step_window (h : Window initialLimit maxWindow f) (op : Op) :
    Window initialLimit maxWindow (f.step op).2 := by
  cases op with
  | receive endOffset =>
    cases hok : f.receive endOffset with
    | error e => simp [step, hok, h]
    | ok f' =>
      simp only [step, hok]
      exact receive_window h hok
  | consume amount => exact consume_window h amount

lemma step_limit (f : RecvFlow) (op : Op) : f.limit ≤ (f.step op).2.limit := by
  cases op with
  | receive endOffset =>
    cases hok : f.receive endOffset with
    | error e => simp [step, hok]
    | ok f' =>
      simp only [step, hok]
      exact Nat.le_of_eq (receive_ok hok).2.symm
  | consume amount => exact consume_limit f amount

lemma init_window {initialLimit window maxWindow : Nat} {f : RecvFlow}
    (h : initWithMaxWindow initialLimit window maxWindow = .ok f) :
    Window initialLimit (max window maxWindow) f := by
  unfold initWithMaxWindow at h
  obtain ⟨-, h⟩ := of_guard h nofun
  obtain ⟨hlarge, h⟩ := of_guard h nofun
  rw [Except.ok.injEq] at h
  rw [← h]
  refine ⟨le_rfl, Nat.zero_le _, ?_, Nat.le_max_left _ _, rfl, ?_, le_rfl, ?_⟩
  · show initialLimit ≤ varintMax
    omega
  · omega
  · simp

/-! ### Runs -/

/--
**A receive window stays one.**  Whatever is received and consumed in whatever order, what was
consumed was received and what was received was allowed; the window and the credit that is open
keep their bounds; the limit never moves back, and no step's arithmetic leaves `u64`.
-/
theorem receive_window_invariant (initialLimit window maxWindow : Nat) (f₀ : RecvFlow)
    (hinit : initWithMaxWindow initialLimit window maxWindow = .ok f₀) (ops : List Op) :
    Window initialLimit (max window maxWindow) (exec step f₀ ops) ∧
      (∀ amount, (exec step f₀ ops).Exact amount) ∧
      ∀ e ∈ trace step f₀ ops, e.pre.limit ≤ e.post.limit := by
  have hstart := init_window hinit
  have hrun := exec_induction step (Window initialLimit (max window maxWindow)) hstart
    (fun f op h => step_window h op) ops
  refine ⟨hrun, hrun.exact, ?_⟩
  intro e he
  obtain ⟨-, hevent⟩ := trace_pre step (Window initialLimit (max window maxWindow)) hstart
    (fun f op h => step_window h op) ops e he
  rw [hevent]
  exact step_limit e.pre e.input

/-- The window doubles once and the limit is moved to the end of what it allows. -/
theorem receive_window_invariant_grows :
    Window 4 8 (exec step { limit := 4, window := 4, maxWindow := 8 }
      [.receive 4, .consume 3, .receive 9]) ∧
      (exec step { limit := 4, window := 4, maxWindow := 8 }
        [.receive 4, .consume 3, .receive 9]).limit = 11 :=
  ⟨(receive_window_invariant 4 4 8 _ rfl [.receive 4, .consume 3, .receive 9]).1, by decide⟩

end Netz.Quic.RecvFlow
