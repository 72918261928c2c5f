/-
The ACK frame of a received-packet tracker says exactly what the tracker holds.

Gaps and lengths are written with offsets of one and two against the range before, and read
back by two readers that are independent of the writer.  The offsets are never negative
because the ranges of a tracker neither touch nor overlap; that is the only thing the writer
rests on.
-/
import Netz.Proofs.PacketSpace
import Netz.Proofs.FrameRoundTrip
import Netz.Proofs.SentRuns

namespace Netz.Quic

open Lib SentPacketTracker List Varint

namespace ReceivedPacketTracker

/-! ### Packet numbers stay packet numbers -/

/-- Every range ends at a packet number. -/
def Capped (t : ReceivedPacketTracker) : Prop := ∀ r ∈ t.ranges, r.stop ≤ varintMax

lemma step_capped {t : ReceivedPacketTracker} (hwf : WF t) (h : Capped t) (op : Op) :
    Capped (t.step op).2 := by
  intro r hr
  have hk := step_kept hwf op
  rcases hk.only r.stop ⟨r, hr, hk.wf.spaced.ordered r hr, le_rfl⟩ with hold | hnew
  · obtain ⟨q, hq, -, hle⟩ := hold
    exact hle.trans (h q hq)
  -- A number that is none is refused, and nothing changes.
  by_contra hlarge
  have hsame : (t.step op).2 = t := by
    cases op with
    | recordFresh oom pn | recordWithEcn oom pn ecn =>
      cases hnew
      simp [step, recordFresh, recordWithEcn, not_le.mp hlarge]
    | pruneAckedRanges largest => simp [Op.packetNumber?] at hnew
  exact hlarge (h r (hsame ▸ hr))

/-! ### The ranges on the wire -/

lemma length_le_succ {value k : Nat} (h : Varint.length value = .ok k) : k ≤ value + 1 := by
  unfold Varint.length at h
  by_cases h₁ : value ≤ 63
  · rw [if_pos h₁, Except.ok.injEq] at h
    omega
  rw [if_neg h₁] at h
  by_cases h₂ : value ≤ 16383
  · rw [if_pos h₂, Except.ok.injEq] at h
    omega
  rw [if_neg h₂] at h
  by_cases h₃ : value ≤ 1073741823
  · rw [if_pos h₃, Except.ok.injEq] at h
    omega
  rw [if_neg h₃] at h
  by_cases h₄ : value ≤ varintMax
  · rw [if_pos h₄, Except.ok.injEq] at h
    omega
  · simp [h₄] at h

lemma addWireLen_of_le {a b : Nat} (h : a + b ≤ maxU64) : addWireLen a b = .ok (a + b) := by
  unfold addWireLen checkedAdd
  rw [if_pos h]

lemma validateQuicVarint_ok {value : Nat} :
    validateQuicVarint value = .ok () ↔ value ≤ varintMax := by simp [validateQuicVarint]

/-- What the writer makes of the ranges below one that ends above `previous.start`. -/
structure Encoded (previous : PacketRange) (older : List PacketRange)
    (ackRanges : List AckRange) : Prop where
  encodes : encodeAckRanges previous older = .ok ackRanges
  decodes : decodeMoreRanges previous.start ackRanges = .ok older
  validates : validateAckRanges previous.start ackRanges = .ok ()
  count : ackRanges.length = older.length
  /-- Every range takes up more packet numbers than bytes. -/
  room : ∀ len, len + previous.start ≤ maxU64 →
    ∃ n, addRangesWireLen len ackRanges = .ok n ∧ n ≤ len + previous.start
  fewer : ackRanges.length ≤ previous.start

lemma encodeAckRanges_spec (older : List PacketRange) :
    ∀ previous : PacketRange, Spaced (previous :: older) → previous.stop ≤ varintMax →
      ∃ ackRanges, Encoded previous older ackRanges := by
  induction older with
  | nil =>
    intro previous _ _
    exact ⟨[], rfl, rfl, rfl, rfl, fun len _ => ⟨len, rfl, Nat.le_add_right _ _⟩, Nat.zero_le _⟩
  | cons range older ih =>
    intro previous hspaced hcap
    obtain ⟨hprev, hbelow, hrest⟩ := Spaced.cons_iff.mp hspaced
    have hgap := hbelow range (by simp)
    have hrange := hrest.ordered range (by simp)
    have hmax : varintMax = 2 ^ 62 - 1 := rfl
    have hu64 : maxU64 = 2 ^ 64 - 1 := rfl
    obtain ⟨ackRanges, henc⟩ := ih range hrest (by omega)
    have hlen : range.len - 1 = range.stop - range.start := by simp [Range.len]
    have hstop : checkedAdd range.stop 2 = some (range.stop + 2) := by
      unfold checkedAdd
      rw [if_pos (by omega)]
    have hskip : checkedAdd (previous.start - range.stop - 2) 2 =
        some (previous.start - range.stop) := by
      unfold checkedAdd
      rw [if_pos (by omega)]
      congr 1
      omega
    have hback : previous.start - (previous.start - range.stop) = range.stop := by omega
    have hstart : range.stop - (range.stop - range.start) = range.start := by omega
    refine ⟨⟨previous.start - range.stop - 2, range.len - 1⟩ :: ackRanges, ?_, ?_, ?_, ?_, ?_, ?_⟩
    · unfold encodeAckRanges
      rw [hstop]
      simp only
      rw [if_neg (by omega), henc.encodes]
    · unfold decodeMoreRanges
      rw [hskip]
      simp only
      rw [if_neg (by omega), if_neg (by omega), hback, hlen, hstart, henc.decodes]
    · unfold validateAckRanges
      simp only
      rw [validateQuicVarint_ok.mpr (by omega), validateQuicVarint_ok.mpr (by omega), hskip]
      simp only
      rw [if_neg (by omega), if_neg (by omega), hback, hlen, hstart]
      exact henc.validates
    · rw [length_cons, length_cons, henc.count]
    · intro len hroom
      obtain ⟨k₁, hk₁⟩ := length_of_le
        (show previous.start - range.stop - 2 ≤ varintMax by omega)
      obtain ⟨k₂, hk₂⟩ := length_of_le (show range.len - 1 ≤ varintMax by omega)
      have hle₁ := length_le_succ hk₁
      have hle₂ := length_le_succ hk₂
      obtain ⟨n, hn, hle⟩ := henc.room (len + k₁ + k₂) (by omega)
      refine ⟨n, ?_, by omega⟩
      unfold addRangesWireLen
      simp only [bind, Except.bind]
      rw [hk₁]
      simp only
      rw [addWireLen_of_le (by omega), hk₂]
      simp only
      rw [addWireLen_of_le (by omega)]
      exact hn
    rw [length_cons]
    have hfewer := henc.fewer
    omega

/-! ### The frame -/

/-- The counters that an ACK frame reports can be written as varints. -/
def EcnWritable : Option EcnCounts → Prop
  | none => True
  | some ecn => ecn.ect0Count ≤ varintMax ∧ ecn.ect1Count ≤ varintMax ∧
      ecn.ecnCeCount ≤ varintMax

instance (ecn : Option EcnCounts) : Decidable (EcnWritable ecn) := by
  cases ecn with
  | none => exact isTrue trivial
  | some ecn => exact inferInstanceAs (Decidable (_ ∧ _))

lemma andThen_ok {x y : Except Error Unit} :
    (x >>= fun _ => y) = .ok () ↔ x = .ok () ∧ y = .ok () := by
  constructor
  · intro h
    obtain ⟨_, hx, hy⟩ := bind_eq_ok h
    exact ⟨hx, hy⟩
  intro h
  rw [h.1]
  exact h.2

lemma validateEcnCounts_ok {ecn : Option EcnCounts} :
    validateEcnCounts ecn = .ok () ↔ EcnWritable ecn := by
  cases ecn with
  | none => exact ⟨fun _ => trivial, fun _ => rfl⟩
  | some ecn => simp [andThen_ok, validateQuicVarint_ok, validateEcnCounts, EcnWritable]

/-- The frame that `ackFrameInto` builds from a largest range and the encoding of the others. -/
def ackOf (largest : PacketRange) (ackRanges : List AckRange) (ackDelay : Nat)
    (ecnCounts : Option EcnCounts) : AckFrame where
  largestAcknowledged := largest.stop
  ackDelay := ackDelay
  firstAckRange := largest.len - 1
  ranges := ackRanges
  ecnCounts := ecnCounts

section Frame

variable {largest : PacketRange} {older : List PacketRange} {ackRanges : List AckRange}
  {ackDelay : Nat} {ecn : Option EcnCounts}

lemma validateAckFrame_iff (henc : Encoded largest older ackRanges)
    (hord : largest.start ≤ largest.stop) (hcap : largest.stop ≤ varintMax) :
    validateAckFrame (ackOf largest ackRanges ackDelay ecn) = .ok () ↔
      ackDelay ≤ varintMax ∧ EcnWritable ecn := by
  have hfewer := henc.fewer
  have hfirst : largest.len - 1 = largest.stop - largest.start := by
    unfold Range.len
    omega
  have hsmallest : largest.stop - (largest.len - 1) = largest.start := by omega
  unfold validateAckFrame ackOf
  dsimp only
  rw [andThen_ok, andThen_ok, andThen_ok, andThen_ok, validateQuicVarint_ok,
    validateQuicVarint_ok, validateQuicVarint_ok, validateQuicVarint_ok, if_neg (by omega),
    andThen_ok, validateEcnCounts_ok, hsmallest]
  constructor
  · intro h
    exact ⟨h.2.1, h.2.2.2.2.2⟩
  · intro h
    exact ⟨hcap, h.1, by omega, by omega, henc.validates, h.2⟩

lemma length_le_eight {value k : Nat} (h : Varint.length value = .ok k) : k ≤ 8 := by
  have hk := (length_ok h).2
  omega

lemma addEcnWireLen_ok (hecn : EcnWritable ecn) {len : Nat} (hroom : len + 24 ≤ maxU64) :
    ∃ n, addEcnWireLen len ecn = .ok n := by
  cases ecn with
  | none => exact ⟨len, rfl⟩
  | some ecn =>
    obtain ⟨h₀, h₁, h₂⟩ := hecn
    obtain ⟨k₀, hk₀⟩ := length_of_le h₀
    obtain ⟨k₁, hk₁⟩ := length_of_le h₁
    obtain ⟨k₂, hk₂⟩ := length_of_le h₂
    have hle₀ := length_le_eight hk₀
    have hle₁ := length_le_eight hk₁
    have hle₂ := length_le_eight hk₂
    refine ⟨len + k₀ + k₁ + k₂, ?_⟩
    unfold addEcnWireLen
    simp only [bind, Except.bind]
    rw [hk₀]
    simp only
    rw [addWireLen_of_le (by omega), hk₁]
    simp only
    rw [addWireLen_of_le (by omega), hk₂]
    exact addWireLen_of_le (by omega)

/-- **The frame can be written exactly when its delay and its counters are varints.** -/
theorem ackFrameWireLen_iff (henc : Encoded largest older ackRanges)
    (hord : largest.start ≤ largest.stop) (hcap : largest.stop ≤ varintMax) :
    (∃ n, (Frame.ack (ackOf largest ackRanges ackDelay ecn)).wireLen = .ok n) ↔
      ackDelay ≤ varintMax ∧ EcnWritable ecn := by
  have hmax : varintMax = 2 ^ 62 - 1 := rfl
  have hu64 : maxU64 = 2 ^ 64 - 1 := rfl
  have hwire : (Frame.ack (ackOf largest ackRanges ackDelay ecn)).wireLen =
      ackFrameWireLen (ackOf largest ackRanges ackDelay ecn) := rfl
  rw [hwire]
  constructor
  · intro h
    obtain ⟨n, hn⟩ := h
    obtain ⟨_, hvalid, -⟩ := bind_eq_ok hn
    exact (validateAckFrame_iff henc hord hcap).mp hvalid
  intro h
  have hvalid := (validateAckFrame_iff henc hord hcap).mpr h
  have hfewer := henc.fewer
  have hlen : largest.len - 1 ≤ varintMax := by
    unfold Range.len
    omega
  obtain ⟨k₁, hk₁⟩ := length_of_le hcap
  obtain ⟨k₂, hk₂⟩ := length_of_le h.1
  obtain ⟨k₃, hk₃⟩ := length_of_le (show ackRanges.length ≤ varintMax by omega)
  obtain ⟨k₄, hk₄⟩ := length_of_le hlen
  have hle₁ := length_le_eight hk₁
  have hle₂ := length_le_eight hk₂
  have hle₃ := length_le_eight hk₃
  have hle₄ := length_le_eight hk₄
  obtain ⟨m, hm, hmle⟩ := henc.room (1 + k₁ + k₂ + k₃ + k₄) (by omega)
  obtain ⟨n, hn⟩ := addEcnWireLen_ok h.2 (show m + 24 ≤ maxU64 by omega)
  refine ⟨n, ?_⟩
  unfold ackFrameWireLen
  rw [hvalid]
  unfold ackOf
  simp only [bind, Except.bind]
  rw [hk₁]
  simp only
  rw [addWireLen_of_le (by omega), hk₂]
  simp only
  rw [addWireLen_of_le (by omega), hk₃]
  simp only
  rw [addWireLen_of_le (by omega), hk₄]
  simp only
  rw [addWireLen_of_le (by omega)]
  simp [hm, hn]

lemma decodeAckRanges_ackOf (henc : Encoded largest older ackRanges)
    (hord : largest.start ≤ largest.stop) :
    decodeAckRanges (ackOf largest ackRanges ackDelay ecn) = .ok (largest :: older) := by
  have hsmallest : largest.stop - (largest.len - 1) = largest.start := by
    unfold Range.len
    omega
  unfold decodeAckRanges ackOf
  simp only
  rw [if_neg (by unfold Range.len; omega), hsmallest, henc.decodes]

end Frame

/-! ### Every reachable tracker -/

lemma reachable_wf (maxRanges : Nat) (ops : List Op) :
    WF (exec step (init maxRanges) ops) ∧ Capped (exec step (init maxRanges) ops) :=
  exec_induction step (fun t => WF t ∧ Capped t)
    ⟨init_wf maxRanges, fun r hr => absurd hr (by simp [init])⟩
    (fun t op h => ⟨(step_kept h.1 op).wf, step_capped h.1 h.2 op⟩) ops

lemma write_of_wireLen_error {frame : Frame} (h : ¬∃ n, frame.wireLen = .ok n) (list : Bytes) :
    ∃ e, frame.write list = .error e := by
  cases hlen : frame.wireLen with
  | ok n => exact absurd ⟨n, hlen⟩ h
  | error e =>
    refine ⟨e, ?_⟩
    unfold Frame.write
    rw [hlen]
    rfl

/-- **The ACK frame of a tracker, and back.**  A tracker that holds anything always has an ACK
frame, whose ranges are decoded to exactly those of the tracker.  It can be written exactly
when the delay and the reported counters are varints, and then parsing what was written gives
the frame back, whatever follows it. -/
theorem ack_frame_round_trip (maxRanges : Nat) (ops : List Op) (capacity ackDelay : Nat)
    (hne : (exec step (init maxRanges) ops).ranges ≠ [])
    (hcapacity : (exec step (init maxRanges) ops).ranges.length - 1 ≤ capacity) :
    ∃ ack, (exec step (init maxRanges) ops).ackFrameInto capacity ackDelay = .ok ack ∧
      ack.ackDelay = ackDelay ∧
      ack.ecnCounts = (exec step (init maxRanges) ops).latestEcnCounts ∧
      decodeAckRanges ack = .ok (exec step (init maxRanges) ops).ranges ∧
      (ackDelay ≤ varintMax ∧ EcnWritable (exec step (init maxRanges) ops).latestEcnCounts →
        ∃ bytes, (∀ list, (Frame.ack ack).write list = .ok (list ++ bytes)) ∧
          ∀ rest, parseFrameOwned (bytes ++ rest) =
            .ok { frame := .ack ack, consumed := bytes.length }) ∧
      (¬(ackDelay ≤ varintMax ∧
          EcnWritable (exec step (init maxRanges) ops).latestEcnCounts) →
        ∀ list, ∃ e, (Frame.ack ack).write list = .error e) := by
  obtain ⟨hwf, hcapped⟩ := reachable_wf maxRanges ops
  generalize exec step (init maxRanges) ops = t at *
  cases hranges : t.ranges with
  | nil => exact absurd hranges hne
  | cons largest older =>
  have hspaced := hwf.spaced
  rw [hranges] at hspaced hcapacity
  have hordered := hspaced.ordered largest (by simp)
  have hcap : largest.stop ≤ varintMax := hcapped largest (by rw [hranges]; simp)
  obtain ⟨ackRanges, henc⟩ := encodeAckRanges_spec older largest hspaced hcap
  have hwritable := @ackFrameWireLen_iff largest older ackRanges ackDelay t.latestEcnCounts henc
    hordered hcap
  refine ⟨ackOf largest ackRanges ackDelay t.latestEcnCounts, ?_, rfl, rfl,
    decodeAckRanges_ackOf henc hordered, ?_, ?_⟩
  · unfold ackFrameInto
    rw [hranges]
    simp only
    rw [if_neg (by simpa using hcapacity), henc.encodes]
    rfl
  · intro hfits
    obtain ⟨n, hn⟩ := hwritable.mpr hfits
    obtain ⟨bytes, hwrite, hlength, hparse⟩ := Frame.parse_write _ n hn
    refine ⟨bytes, hwrite, ?_⟩
    intro rest
    rw [hlength]
    refine hparse rest (by simp) ?_ (by simp)
    simp [Frame.openEnded]
  · intro hnot list
    exact write_of_wireLen_error (fun h => hnot (hwritable.mp h)) list

/-- Packets 1 to 3, 7, 8 and 10. -/
def sixPackets : List Op :=
  [.recordFresh false 1, .recordFresh false 2, .recordFresh false 3, .recordFresh false 7,
    .recordFresh false 8, .recordWithEcn false 10 .ce]

theorem ack_frame_round_trip_six_packets :
    ∃ ack, (exec step (init 8) sixPackets).ackFrameInto 2 7 = .ok ack ∧
      decodeAckRanges ack = .ok [⟨10, 10⟩, ⟨7, 8⟩, ⟨1, 3⟩] ∧
      ∃ bytes, (Frame.ack ack).write [] = .ok bytes ∧
        parseFrameOwned bytes = .ok { frame := .ack ack, consumed := bytes.length } := by
  obtain ⟨ack, hack, -, -, hdecode, hwrite, -⟩ :=
    ack_frame_round_trip 8 sixPackets 2 7 (by decide) (by decide)
  obtain ⟨bytes, hbytes, hparse⟩ := hwrite (by decide)
  refine ⟨ack, hack, hdecode.trans (by decide), bytes, hbytes [], ?_⟩
  have hwhole := hparse []
  rwa [append_nil] at hwhole

/-- A delay that is no varint has no encoding. -/
theorem large_ack_delay_not_written :
    ¬ ∀ (maxRanges : Nat) (ops : List Op) (capacity ackDelay : Nat),
      (exec step (init maxRanges) ops).ranges ≠ [] →
      (exec step (init maxRanges) ops).ranges.length - 1 ≤ capacity →
      ∃ ack bytes, (exec step (init maxRanges) ops).ackFrameInto capacity ackDelay = .ok ack ∧
        (Frame.ack ack).write [] = .ok bytes := by
  intro h
  obtain ⟨ack, bytes, hack, hwrite⟩ :=
    h 8 [.recordFresh false 0] 0 (2 ^ 62) (by decide) (by decide)
  have hbuilt : (exec step (init 8) [.recordFresh false 0]).ackFrameInto 0 (2 ^ 62) =
      .ok ⟨0, 2 ^ 62, 0, [], none⟩ := by decide
  rw [hbuilt, Except.ok.injEq] at hack
  have hrefused : (Frame.ack ⟨0, 2 ^ 62, 0, [], none⟩).write [] = .error .invalidFrameLength := by
    decide
  rw [← hack, hrefused] at hwrite
  exact absurd hwrite (by simp)

/-! ### At the sender of the packets -/

/-- The ranges hold only numbers that were recorded. -/
theorem covers_recorded {maxRanges : Nat} {ops : List Op} {n : Nat}
    (h : Covers (exec step (init maxRanges) ops).ranges n) :
    ∃ op ∈ ops, op.packetNumber? = some n := by
  have hrun := @trace_induction _ _ _ step (init maxRanges) (fun _ _ => True)
    (fun events t => WF t ∧ ∀ n, Covers t.ranges n →
      ∃ e ∈ events, e.input.packetNumber? = some n)
    ⟨init_wf maxRanges, fun n hn => absurd hn (covers_nil n)⟩ ?_ ops (fun _ _ => trivial)
  · obtain ⟨e, he, hnumber⟩ := hrun.2 n h
    exact ⟨e.input, map_input_trace (init maxRanges) ops ▸ mem_map_of_mem he, hnumber⟩
  · intro events t op ht _
    have hk := step_kept ht.1 op
    refine ⟨hk.wf, fun n hn => ?_⟩
    rcases hk.only n hn with hold | hnew
    · obtain ⟨e, he, hnumber⟩ := ht.2 n hold
      exact ⟨e, mem_append_left _ he, hnumber⟩
    · exact ⟨event step t op, mem_append_right _ (mem_singleton.mpr rfl), hnew⟩

lemma ackFrameInto_decodes {t : ReceivedPacketTracker} (hwf : WF t) (hcapped : Capped t)
    {capacity ackDelay : Nat} {ack : AckFrame} (hack : t.ackFrameInto capacity ackDelay = .ok ack) :
    decodeAckRanges ack = .ok t.ranges := by
  unfold ackFrameInto at hack
  cases hranges : t.ranges with
  | nil => simp [hranges] at hack
  | cons largest older =>
    have hspaced := hwf.spaced
    rw [hranges] at hack hspaced
    obtain ⟨ackRanges, henc⟩ := encodeAckRanges_spec older largest hspaced
      (hcapped largest (by rw [hranges]; simp))
    obtain ⟨-, hack⟩ := of_guard hack (by simp)
    rw [henc.encodes] at hack
    cases hack
    exact decodeAckRanges_ackOf henc (hspaced.ordered largest (by simp))

/-- **The ACK of a peer that received only what was sent** can be refused for its ECN counters
alone, and acknowledges what the peer still holds. -/
theorem peer_ack_accepted (maxRanges capacity ackDelay : Nat) (received : List Op)
    (ops : List IndexedTracker.Op) (hops : IndexedTracker.Ascending ops)
    (hsent : ∀ op ∈ received, ∀ n, op.packetNumber? = some n → IndexedTracker.Known ops n)
    {ack : AckFrame}
    (hack : (exec step (init maxRanges) received).ackFrameInto capacity ackDelay = .ok ack) :
    let t := exec IndexedTracker.step {} ops
    ((∃ result, (t.applyAckDetailed ack).1 = .ok result) ↔
        t.toSentPacketTracker.EcnAcceptable ack) ∧
      (t.toSentPacketTracker.EcnAcceptable ack →
        ∀ p ∈ (t.applyAckDetailed ack).2.packets,
          (Covers (exec step (init maxRanges) received).ranges p.packetNumber →
            p.acknowledged = true) ∧
          (¬Covers (exec step (init maxRanges) received).ranges p.packetNumber →
            p ∈ t.packets)) := by
  intro t
  obtain ⟨next, hrun⟩ := IndexedTracker.exec_runInv hops
  obtain ⟨hwf, hcapped⟩ := reachable_wf maxRanges received
  have hdecode := ackFrameInto_decodes hwf hcapped hack
  obtain ⟨hfits, hnames⟩ := decodeAckRanges_names hdecode
  have hcovers : ∀ n, ackRangesContain (exec step (init maxRanges) received).ranges n = true ↔
      Covers (exec step (init maxRanges) received).ranges n := by
    simp [ackRangesContain, Covers, Range.Holds]
  have hall : t.toSentPacketTracker.Names ack := by
    refine (names_iff hrun.inv.wf ack).mpr ⟨hfits, fun n hn => ?_⟩
    obtain ⟨op, hop, hnumber⟩ := covers_recorded ((hcovers n).mp (hnames n ▸ hn))
    exact (IndexedTracker.known_iff hrun n).mpr (hsent op hop n hnumber)
  have haccepted := (IndexedTracker.accepted_iff hrun.inv ack).trans (and_iff_right hall)
  refine ⟨haccepted, fun hecn p hp => ?_⟩
  obtain ⟨result, hok⟩ := haccepted.mpr hecn
  obtain ⟨rs, count, hrs, hpackets, -⟩ := IndexedTracker.applyAckDetailed_effect hrun.inv hok
  rw [hdecode, Except.ok.injEq] at hrs
  rw [hpackets, ← hrs] at hp
  obtain ⟨sent, hmem, rfl⟩ := mem_map.mp (mem_of_mem_drop hp)
  rw [closeCovered_packetNumber, ← hcovers]
  unfold closeCovered
  refine ⟨fun hin => ?_, fun hout => ?_⟩
  · rw [if_pos (by exact hin)]
    rfl
  · rw [if_neg (by exact hout)]
    exact hmem

/-- The packets 3 and 7 were sent and have arrived. -/
theorem peer_ack_accepted_two :
    ∃ result, ((exec IndexedTracker.step {} [.sent { packetNumber := 3 } true,
      .sent { packetNumber := 7 } true]).applyAckDetailed ⟨7, 0, 0, [⟨2, 0⟩], none⟩).1 =
        .ok result :=
  (peer_ack_accepted 8 1 0 [.recordFresh false 7, .recordFresh false 3]
    [.sent { packetNumber := 3 } true, .sent { packetNumber := 7 } true] ⟨by decide, by decide⟩
    (by simp [Op.packetNumber?, IndexedTracker.Known, IndexedTracker.sentNumbers]; decide)
    (by decide)).1.mpr (by simp [EcnAcceptable])

end ReceivedPacketTracker

end Netz.Quic
