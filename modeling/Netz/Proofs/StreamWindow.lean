/-
When the advertised stream window can be stored.

The buffer of a stream is measured from its storage offset, which lags behind what has been
read, while the limit advertised to the peer moves with every read.  A frame up to the limit
fits as long as the limit, or the final size where that is smaller, lies within `maxBuffered`
of the storage offset.  Receiving keeps that; releasing capacity keeps it exactly when the new
limit does not overrun the storage that the read leaves behind.
-/
import Netz.Proofs.PreflightExact
import Netz.Proofs.StreamCalls

namespace Netz.Quic

open Lib

namespace RecvFlow

/-- The window `maybeGrowWindow` leaves when `consumed` bytes have been read. -/
def grownWindow (f : RecvFlow) (consumed : Nat) : Nat :=
  if f.maxWindow ≤ f.window then f.window
  else if consumed - f.autotuneEpochConsumed ≤ f.window / 4 then f.window
  else min (min (f.window * 2) maxU64) f.maxWindow

/-- The limit after `amount` more bytes were read: it moves once half of the window is used. -/
def limitAfter (f : RecvFlow) (amount : Nat) : Nat :=
  if f.limit - (f.consumed + amount) ≤ f.window / 2 then
    max f.limit
      (min (f.consumed + amount + f.grownWindow (f.consumed + amount)) varintMax)
  else f.limit

/-- The counters of a window lie where they should. -/
structure Ordered (f : RecvFlow) : Prop where
  received : f.highestReceived ≤ f.limit
  limit : f.limit ≤ varintMax
  window : f.window ≤ f.maxWindow
  maxWindow : f.maxWindow ≤ varintMax

lemma grownWindow_le {f : RecvFlow} (h : f.window ≤ f.maxWindow) (consumed : Nat) :
    f.grownWindow consumed ≤ f.maxWindow := by
  unfold grownWindow
  split
  · exact h
  split
  · exact h
  · exact Nat.min_le_right _ _

lemma maybeGrowWindow_eq (f : RecvFlow) :
    f.maybeGrowWindow.window = f.grownWindow f.consumed ∧
      f.maybeGrowWindow.limit = f.limit ∧ f.maybeGrowWindow.consumed = f.consumed ∧
      f.maybeGrowWindow.highestReceived = f.highestReceived ∧
      f.maybeGrowWindow.maxWindow = f.maxWindow := by
  unfold maybeGrowWindow grownWindow
  by_cases hmax : f.maxWindow ≤ f.window
  · simp [hmax]
  rw [if_neg hmax, if_neg hmax]
  by_cases hslow : f.consumed - f.autotuneEpochConsumed ≤ f.window / 4
  · simp [hslow]
  · simp [hslow]

/-- **What reading does to a window**, as long as only received bytes are read. -/
theorem consume_spec {f : RecvFlow} (h : f.Ordered) {amount : Nat} (hpos : 0 < amount)
    (hread : f.consumed + amount ≤ f.highestReceived) :
    (f.consume amount).2.Ordered ∧
      (f.consume amount).2.consumed = f.consumed + amount ∧
      (f.consume amount).2.highestReceived = f.highestReceived ∧
      (f.consume amount).2.limit = f.limitAfter amount := by
  have hrecv := h.received
  have hlimit := h.limit
  have hmaxWindow := h.maxWindow
  have hmax : varintMax = 2 ^ 62 - 1 := rfl
  have hu64 : maxU64 = 2 ^ 64 - 1 := rfl
  have hcred : min f.highestReceived (saturatingAdd f.consumed amount) = f.consumed + amount := by
    unfold saturatingAdd
    omega
  obtain ⟨hwindow', hlimit', hconsumed', hhigh', hmaxWindow'⟩ :=
    maybeGrowWindow_eq { f with consumed := f.consumed + amount }
  have hgrown : ({ f with consumed := f.consumed + amount } : RecvFlow).grownWindow
      (f.consumed + amount) = f.grownWindow (f.consumed + amount) := rfl
  have hgrownLe := grownWindow_le h.window (f.consumed + amount)
  unfold consume
  rw [if_neg (by omega), if_neg (by omega), hcred]
  unfold advanceLimit limitAfter
  by_cases hhalf : f.limit - (f.consumed + amount) ≤ f.window / 2
  · rw [if_pos hhalf, if_pos hhalf]
    simp only [hconsumed', hwindow', hgrown]
    have hsat : saturatingAdd (f.consumed + amount) (f.grownWindow (f.consumed + amount)) =
        f.consumed + amount + f.grownWindow (f.consumed + amount) := by
      unfold saturatingAdd
      omega
    rw [hsat, hlimit']
    by_cases hkeep : min (f.consumed + amount + f.grownWindow (f.consumed + amount)) varintMax ≤
        f.limit
    · rw [if_pos hkeep]
      refine ⟨⟨?_, ?_, ?_, ?_⟩, hconsumed', hhigh', ?_⟩
      · simp [hhigh', hlimit', hrecv]
      · simp [hlimit', hlimit]
      · simp [hwindow', hmaxWindow', hgrown, hgrownLe]
      · simp [hmaxWindow', hmaxWindow]
      · rw [hlimit']
        exact (Nat.max_eq_left hkeep).symm
    rw [if_neg hkeep]
    have hnext : f.highestReceived ≤
        min (f.consumed + amount + f.grownWindow (f.consumed + amount)) varintMax := by omega
    have hmoved : min (f.consumed + amount + f.grownWindow (f.consumed + amount)) varintMax =
        max f.limit
          (min (f.consumed + amount + f.grownWindow (f.consumed + amount)) varintMax) := by omega
    refine ⟨⟨?_, Nat.min_le_right _ _, ?_, ?_⟩, rfl, hhigh', hmoved⟩
    · exact Nat.le_trans hhigh'.le hnext
    · exact hgrownLe.trans (Nat.le_of_eq hmaxWindow'.symm)
    · exact Nat.le_trans hmaxWindow'.le hmaxWindow
  · rw [if_neg hhalf, if_neg hhalf]
    exact ⟨⟨hrecv, hlimit, h.window, hmaxWindow⟩, rfl, rfl, rfl⟩

lemma initWithMaxWindow_ok {limit window maxWindow : Nat} {f : RecvFlow}
    (h : initWithMaxWindow limit window maxWindow = .ok f) :
    f.Ordered ∧ f.limit = limit ∧ f.consumed = 0 := by
  unfold initWithMaxWindow at h
  obtain ⟨-, h⟩ := of_guard h nofun
  obtain ⟨hlarge, h⟩ := of_guard h nofun
  rw [Except.ok.injEq] at h
  rw [← h]
  refine ⟨⟨Nat.zero_le _, ?_, Nat.le_max_left _ _, ?_⟩, rfl, rfl⟩
  · show limit ≤ varintMax
    omega
  · show max window maxWindow ≤ varintMax
    omega

lemma receive_spec {f f' : RecvFlow} {stop : Nat} (h : f.Ordered)
    (hok : f.receive stop = .ok f') :
    f'.Ordered ∧ f'.limit = f.limit ∧ f'.consumed = f.consumed ∧
      f.highestReceived ≤ f'.highestReceived ∧ stop ≤ f'.highestReceived := by
  unfold receive at hok
  obtain ⟨hover, hok⟩ := of_guard hok nofun
  by_cases hold : stop ≤ f.highestReceived
  · rw [if_pos hold, Except.ok.injEq] at hok
    rw [← hok]
    exact ⟨h, rfl, rfl, le_rfl, hold⟩
  rw [if_neg hold, Except.ok.injEq] at hok
  rw [← hok]
  refine ⟨⟨?_, h.limit, h.window, h.maxWindow⟩, rfl, rfl, ?_, le_rfl⟩
  · show stop ≤ f.limit
    omega
  · show f.highestReceived ≤ stop
    omega

end RecvFlow

/-! ### What the buffer can take -/

namespace RecvState

variable {A : Finset Nat} {s s' : RecvState} {frame : StreamFrame} {limit n : Nat}

/-- No frame that ends within `limit` is too large for the buffer. -/
def Storable (s : RecvState) (limit : Nat) : Prop :=
  ∀ frame : StreamFrame, frame.offset + frame.data.length ≤ limit →
    (s.insertTracked frame).1 ≠ .error .streamBufferTooLarge

/-- The last offset a frame within `limit` can reach: nothing ends past the final size. -/
def reachableEnd (s : RecvState) (limit : Nat) : Nat :=
  match s.finalSize with
  | some size => min size limit
  | none => limit

lemma reachableEnd_le (s : RecvState) (limit : Nat) : s.reachableEnd limit ≤ limit := by
  unfold reachableEnd
  cases s.finalSize with
  | none => exact le_rfl
  | some size => exact Nat.min_le_right _ _

/-- Where the storage starts once `amount` more bytes were read: a short prefix stays. -/
def storageAfterRead (s : RecvState) (amount : Nat) : Nat :=
  if s.readOffset + amount - s.storageOffset < s.buffer.length / 2 ∧
      s.readOffset + amount - s.storageOffset < s.maxBuffered / 2 then s.storageOffset
  else s.readOffset + amount

lemma tooLarge_iff (h : Tracks A s) :
    (s.insertTracked frame).1 = .error .streamBufferTooLarge ↔
      frame.streamId = s.streamId ∧ frame.offset + frame.data.length ≤ maxU64 ∧
      exceedsFinalSize s.finalSize (frame.offset + frame.data.length) frame.fin = false ∧
      s.storageOffset < frame.offset + frame.data.length ∧
      s.maxBuffered < frame.offset + frame.data.length - s.storageOffset := by
  have hreject : (s.insertTracked frame).1 = .error .streamBufferTooLarge ↔
      rejection s frame = some .streamBufferTooLarge := by
    cases hrej : rejection s frame with
    | some e =>
      rw [insertTracked_rejected h hrej]
      simp
    | none =>
      obtain ⟨n, s', hins⟩ := insertTracked_accepted h hrej
      rw [hins]
      simp
  rw [hreject]
  unfold rejection
  by_cases hid : frame.streamId ≠ s.streamId
  · simp [hid]
  by_cases hfits : maxU64 < frame.offset + frame.data.length
  · simp [hid, hfits]
  by_cases hfinal : exceedsFinalSize s.finalSize (frame.offset + frame.data.length) frame.fin = true
  · simp [hid, hfits, hfinal]
  rw [if_neg hid, if_neg hfits, if_neg hfinal]
  by_cases hroom : s.storageOffset < frame.offset + frame.data.length ∧
      s.maxBuffered < frame.offset + frame.data.length - s.storageOffset
  · rw [if_pos hroom]
    exact ⟨fun _ => ⟨not_not.mp hid, by omega, by simpa using hfinal, hroom⟩, fun _ => rfl⟩
  rw [if_neg hroom]
  constructor
  · intro hrest
    by_cases hagree : Agrees s frame
    · simp [(not_not.mpr hagree)] at hrest
    · simp [hagree] at hrest
  · omega

/-- **A limit is storable when it, or the final size, lies within the buffer.** -/
theorem storable_iff (h : Tracks A s) (hlim : limit ≤ varintMax) :
    Storable s limit ↔ s.reachableEnd limit ≤ s.storageOffset + s.maxBuffered := by
  have hmax : varintMax = 2 ^ 62 - 1 := rfl
  have hu64 : maxU64 = 2 ^ 64 - 1 := rfl
  constructor
  · intro hstore
    by_contra hover
    -- An empty frame at the last offset is already too large.
    have hle := s.reachableEnd_le limit
    apply hstore ⟨s.streamId, s.reachableEnd limit, false, []⟩ hle
    rw [tooLarge_iff h]
    simp only [List.length_nil]
    refine ⟨trivial, by omega, ?_, by omega, by omega⟩
    unfold exceedsFinalSize reachableEnd
    cases s.finalSize with
    | none => rfl
    | some size => simp
  intro hfit frame hend hlarge
  obtain ⟨-, -, hfinal, hpast, hroom⟩ := (tooLarge_iff h).mp hlarge
  have hreach : frame.offset + frame.data.length ≤ s.reachableEnd limit := by
    unfold reachableEnd
    unfold exceedsFinalSize at hfinal
    cases hknown : s.finalSize with
    | none => exact hend
    | some size =>
      rw [hknown] at hfinal
      simp only [Bool.or_eq_false_iff, decide_eq_false_iff_not] at hfinal
      show _ ≤ min size limit
      omega
  omega

lemma insertTracked_reachable (h : Tracks A s) (hins : s.insertTracked frame = (.ok n, s'))
    (hend : frame.offset + frame.data.length ≤ limit) :
    s'.storageOffset = s.storageOffset ∧ s'.maxBuffered = s.maxBuffered ∧
      s'.reachableEnd limit ≤ s.reachableEnd limit := by
  have hfinal := (insertTracked_final h hins).2.1
  have hplaces : s'.storageOffset = s.storageOffset ∧ s'.maxBuffered = s.maxBuffered := by
    obtain ⟨-, ⟨-, hs, -⟩ | ⟨-, -, hs⟩⟩ := insertTracked_cases hins
    · rw [hs]
      unfold noteFinal
      by_cases hfin : frame.fin = true
      · simp [hfin]
      · simp [hfin]
    · rw [hs]
      exact ⟨rfl, rfl⟩
  refine ⟨hplaces.1, hplaces.2, ?_⟩
  have hbelow : ∀ size, s.finalSize = some size → frame.offset + frame.data.length ≤ size := by
    intro size hsize
    have hex : exceedsFinalSize s.finalSize (frame.offset + frame.data.length) frame.fin =
        false := by
      cases hrej : rejection s frame with
      | none => exact not_exceeds_of_accepted hrej
      | some e => simp [insertTracked_rejected h hrej] at hins
    unfold exceedsFinalSize at hex
    rw [hsize] at hex
    simp only [Bool.or_eq_false_iff, decide_eq_false_iff_not] at hex
    omega
  unfold reachableEnd
  rw [hfinal]
  by_cases hfin : frame.fin = true
  · rw [if_pos hfin]
    cases hsize : s.finalSize with
    | none => exact Nat.min_le_right _ _
    | some size =>
      have hle := hbelow size hsize
      show min (frame.offset + frame.data.length) limit ≤ min size limit
      omega
  · rw [if_neg hfin]

lemma consume_storage (h : Tracks A s) {amount : Nat} (hpos : 0 < amount)
    (hok : s.consume amount = (.ok (), s')) :
    s'.storageOffset = s.storageAfterRead amount ∧ s'.maxBuffered = s.maxBuffered ∧
      s'.readOffset = s.readOffset + amount := by
  unfold consume at hok
  rw [if_neg (by omega)] at hok
  obtain ⟨hshort, hok⟩ := of_guard hok nofun
  rw [Prod.mk.injEq] at hok
  rw [← hok.2]
  unfold compactConsumedPrefix storageAfterRead
  have hstorage := h.storageLeRead
  simp only
  rw [if_neg (by omega)]
  by_cases hkeep : s.readOffset + amount - s.storageOffset < s.buffer.length / 2 ∧
      s.readOffset + amount - s.storageOffset < s.maxBuffered / 2
  · simp [hkeep]
  · simp [hkeep]

end RecvState

end Netz.Quic
