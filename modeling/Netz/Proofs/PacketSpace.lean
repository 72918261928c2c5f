/-
Replay protection of the received packet tracker.

`WF` is the representation invariant: the ranges are spaced, there are at most
`maxRanges` of them, all of them lie above what has been forgotten, and the packet
count is the sum of their lengths.  `Seen` is what the tracker answers "no" to: the
numbers a range holds together with everything that has been forgotten.

Every call keeps `WF`, never forgets that a number was seen, and says "yes" only to
a number that was not seen and now is (`Sound`).  The seen set only grows, so "yes"
is said at most once to each number, even after eviction and pruning have erased
the range that held it.
-/
import Netz.Lib.Machine
import Netz.Quic.PacketSpace

namespace Netz.Quic.ReceivedPacketTracker

open Lib List

/-! ### The invariant and what it protects -/

/-- The representation invariant. -/
structure WF (t : ReceivedPacketTracker) : Prop where
  /-- Ranges descend and never touch. -/
  spaced : Spaced t.ranges
  bounded : t.ranges.length ≤ t.maxRanges
  /-- Nothing retained has been forgotten. -/
  above : ∀ through, t.forgottenThrough = some through → ∀ r ∈ t.ranges, through < r.start
  counted : t.retainedPacketCount = total t.ranges

/-- The numbers the tracker treats as already received. -/
def Seen (t : ReceivedPacketTracker) (n : Nat) : Prop :=
  t.forgotten n = true ∨ Covers t.ranges n

/-- What a call that asks about `packetNumber` may do. -/
structure Sound (t : ReceivedPacketTracker) (packetNumber : Nat)
    (r : Except Error Bool × ReceivedPacketTracker) : Prop where
  wf : WF r.2
  cap : r.2.maxRanges = t.maxRanges
  keeps : ∀ n, Seen t n → Seen r.2 n
  only : ∀ n, Covers r.2.ranges n → Covers t.ranges n ∨ n = packetNumber
  fresh : r.1 = .ok true → ¬ Seen t packetNumber ∧ Seen r.2 packetNumber

lemma init_wf (maxRanges : Nat) : WF (init maxRanges) :=
  ⟨Spaced.nil, Nat.zero_le _, by intro through h; simp [init] at h, rfl⟩

variable {t t' : ReceivedPacketTracker} {res : Except Error Bool} {n pn p : Nat}
  {newer older kept : List PacketRange} {oldest r : PacketRange}

lemma sound_unchanged {packetNumber : Nat} (hwf : WF t) (hres : res ≠ .ok true) :
    Sound t packetNumber (res, t) :=
  ⟨hwf, rfl, fun _ hn => hn, fun _ => .inl, fun h => absurd h hres⟩

/-! ### Forgetting -/

lemma forgotten_iff :
    t.forgotten n = true ↔ ∃ through, t.forgottenThrough = some through ∧ n ≤ through := by
  unfold forgotten
  cases h : t.forgottenThrough with
  | none | some => simp

@[simp] lemma forgetThrough_ranges (t : ReceivedPacketTracker) (pn : Nat) :
    (t.forgetThrough pn).ranges = t.ranges := rfl

@[simp] lemma forgetThrough_retained (t : ReceivedPacketTracker) (pn : Nat) :
    (t.forgetThrough pn).retainedPacketCount = t.retainedPacketCount := rfl

lemma forgetThrough_forgotten :
    (t.forgetThrough pn).forgotten n = true ↔ t.forgotten n = true ∨ n ≤ pn := by
  unfold forgetThrough forgotten
  cases t.forgottenThrough with
  | none => simp
  | some previous => simp only [decide_eq_true_eq]; omega

lemma forgetThrough_above {rs : List PacketRange}
    (h : ∀ through, t.forgottenThrough = some through → ∀ r ∈ rs, through < r.start)
    (hpn : ∀ r ∈ rs, pn < r.start) :
    ∀ through, (t.forgetThrough pn).forgottenThrough = some through →
      ∀ r ∈ rs, through < r.start := by
  intro through heq r hr
  have hnew := hpn r hr
  simp only [forgetThrough, Option.some.injEq] at heq
  cases hprev : t.forgottenThrough with
  | none =>
    rw [hprev] at heq
    simp only at heq
    omega
  | some previous =>
    rw [hprev] at heq
    simp only at heq
    have hold := h previous hprev r hr
    omega

/-! ### Adjacency on packet numbers that fit a varint -/

lemma isImmediatelyBefore_iff (hn : n ≤ varintMax) :
    isImmediatelyBefore p n = true ↔ p + 1 = n := by
  unfold isImmediatelyBefore
  have hlt : varintMax < maxU64 := by decide
  by_cases hp : p = maxU64
  · rw [if_pos hp]
    constructor
    · intro h; exact Bool.noConfusion h
    · intro h; omega
  · simp [hp]

lemma isImmediatelyBefore_iff' (hp : p ≤ varintMax) :
    isImmediatelyBefore p n = true ↔ p + 1 = n := by
  unfold isImmediatelyBefore
  have hlt : varintMax < maxU64 := by decide
  rw [if_neg (by omega : p ≠ maxU64)]
  exact decide_eq_true_iff

/-! ### Inserting a range

A new one-number range goes between the ranges above it and the ranges below it,
with a gap on both sides.  When the list is full, the oldest range makes room for
it, unless the new range would itself be the oldest: then the number is forgotten
on the spot and the call says "no".
-/

private lemma single_holds : (⟨pn, pn⟩ : PacketRange).Holds n ↔ n = pn := by
  simp only [Range.Holds]
  omega

/-- Putting a one-number range in a gap keeps the list spaced. -/
theorem spaced_insert (h : Spaced (newer ++ older)) (hnewer : ∀ a ∈ newer, pn + 2 ≤ a.start)
    (holder : ∀ b ∈ older, b.stop + 2 ≤ pn) : Spaced (newer ++ ⟨pn, pn⟩ :: older) := by
  obtain ⟨hn, ho, hno⟩ := Spaced.append_iff.mp h
  exact Spaced.middle_iff.mpr ⟨hn, le_rfl, ho, hnewer, holder, hno⟩

lemma not_covers_gap (hnewer : ∀ a ∈ newer, pn + 2 ≤ a.start)
    (holder : ∀ b ∈ older, b.stop + 2 ≤ pn) : ¬ Covers (newer ++ older) pn := by
  rw [covers_append]
  intro h
  rcases h with h | h
  · exact Spaced.not_covers_of_lt (fun a ha => by have := hnewer a ha; omega) h
  · exact Spaced.not_covers_of_gt (fun b hb => by have := holder b hb; omega) h

lemma not_seen_gap (hsplit : t.ranges = newer ++ older) (hgone : t.forgotten pn = false)
    (hnewer : ∀ a ∈ newer, pn + 2 ≤ a.start) (holder : ∀ b ∈ older, b.stop + 2 ≤ pn) :
    ¬ Seen t pn := by
  intro h
  rcases h with h | h
  · simp [hgone] at h
  · rw [hsplit] at h
    exact not_covers_gap hnewer holder h

/-- **Gaining one number is sound.**  A call that says "yes" and leaves a spaced list
holding exactly one more number keeps everything else. -/
theorem grow_sound (hwf : WF t) (hnot : ¬ Seen t pn) (hcap : t'.maxRanges = t.maxRanges)
    (hforget : t'.forgottenThrough = t.forgottenThrough) (hspaced : Spaced t'.ranges)
    (hlen : t'.ranges.length ≤ t.maxRanges)
    (hcovers : ∀ n, Covers t'.ranges n ↔ Covers t.ranges n ∨ n = pn)
    (hcount : t'.retainedPacketCount = total t'.ranges) : Sound t pn (.ok true, t') := by
  have hgone : ∀ n, t'.forgotten n = t.forgotten n := by simp [hforget, forgotten]
  refine ⟨⟨hspaced, by rw [hcap]; exact hlen, ?_, hcount⟩, hcap, ?_, fun n => (hcovers n).mp, ?_⟩
  · -- A retained range starts at a number that is held, so not at a forgotten one.
    intro through hthrough r hr
    rw [hforget] at hthrough
    have hstart : Covers t'.ranges r.start := ⟨r, hr, le_rfl, hspaced.ordered r hr⟩
    rcases (hcovers r.start).mp hstart with ⟨q, hq, hlo, -⟩ | hpn
    · have := hwf.above through hthrough q hq
      omega
    by_contra hc
    exact hnot (.inl (forgotten_iff.mpr ⟨through, hthrough, by omega⟩))
  · intro n hn
    rcases hn with hn | hn
    · exact .inl (by rw [hgone]; exact hn)
    · exact .inr ((hcovers n).mpr (.inl hn))
  · intro _
    exact ⟨hnot, .inr ((hcovers pn).mpr (.inr rfl))⟩

/-- There is room: the range is placed and nothing else changes. -/
theorem placeRange_sound (hwf : WF t) (hsplit : t.ranges = newer ++ older)
    (hroom : t.ranges.length < t.maxRanges) (hgone : t.forgotten pn = false)
    (hnewer : ∀ a ∈ newer, pn + 2 ≤ a.start) (holder : ∀ b ∈ older, b.stop + 2 ≤ pn) :
    Sound t pn (.ok true, t.placeRange newer.length ⟨pn, pn⟩) := by
  have hranges : (t.placeRange newer.length ⟨pn, pn⟩).ranges = newer ++ ⟨pn, pn⟩ :: older := by
    show t.ranges.insertIdx newer.length ⟨pn, pn⟩ = _
    rw [hsplit, insertIdx_split]
  have hspaced : Spaced (newer ++ older) := by rw [← hsplit]; exact hwf.spaced
  refine grow_sound hwf (not_seen_gap hsplit hgone hnewer holder) rfl rfl ?_ ?_ ?_ ?_
  · rw [hranges]
    exact spaced_insert hspaced hnewer holder
  · rw [hranges]
    rw [hsplit] at hroom
    simp only [length_append, length_cons] at hroom ⊢
    omega
  · intro n
    rw [hranges, hsplit, covers_append, covers_append, covers_cons, single_holds]
    tauto
  rw [hranges]
  show t.retainedPacketCount + _ = _
  rw [hwf.counted, hsplit]
  simp only [total_append, total_cons]
  omega

/-- A full list: the oldest range is forgotten, and the new one takes its room. -/
theorem evict_wf (hwf : WF t) (hsplit : t.ranges = kept ++ [oldest]) :
    WF (t.evictOldest oldest) ∧ (t.evictOldest oldest).ranges = kept := by
  have hranges : (t.evictOldest oldest).ranges = kept := by
    show t.ranges.dropLast = kept
    rw [hsplit, dropLast_concat]
  have hspaced : Spaced (kept ++ [oldest]) := by rw [← hsplit]; exact hwf.spaced
  obtain ⟨hkept, hold, hgap⟩ := Spaced.append_iff.mp hspaced
  have hbelow : ∀ r ∈ kept, oldest.stop < r.start := by
    intro r hr
    have := hgap r hr oldest (by simp)
    omega
  refine ⟨⟨?_, ?_, ?_, ?_⟩, hranges⟩
  · rw [hranges]; exact hkept
  · rw [hranges]
    have hlen := hwf.bounded
    rw [hsplit, length_append] at hlen
    show kept.length ≤ t.maxRanges
    omega
  · rw [hranges]
    exact forgetThrough_above (fun through h r hr =>
      hwf.above through h r (by rw [hsplit]; simp [hr])) hbelow
  rw [hranges]
  show t.retainedPacketCount - oldest.len = total kept
  rw [hwf.counted, hsplit]
  simp

lemma evict_seen (hsplit : t.ranges = kept ++ [oldest]) (hn : Seen t n) :
    Seen (t.evictOldest oldest) n := by
  have hranges : (t.evictOldest oldest).ranges = kept := by
    show t.ranges.dropLast = kept
    rw [hsplit, dropLast_concat]
  have hgone : (t.evictOldest oldest).forgotten n = (t.forgetThrough oldest.stop).forgotten n :=
    rfl
  unfold Seen
  rw [hranges, hgone, forgetThrough_forgotten]
  rcases hn with hn | hn
  · exact .inl (.inl hn)
  rw [hsplit, covers_append, covers_cons] at hn
  rcases hn with hn | hn | hn
  · exact .inr hn
  · exact .inl (.inr hn.2)
  · exact absurd hn (covers_nil n)

lemma insertRange_sound (hwf : WF t) (oom : Bool) (hsplit : t.ranges = newer ++ older)
    (hforgot : t.forgotten pn = false) (hnewer : ∀ a ∈ newer, pn + 2 ≤ a.start)
    (holder : ∀ b ∈ older, b.stop + 2 ≤ pn) :
    Sound t pn (t.insertRange oom newer.length ⟨pn, pn⟩) := by
  have hnotSeen : ¬ Seen t pn := not_seen_gap hsplit hforgot hnewer holder
  unfold insertRange
  by_cases hzero : t.maxRanges = 0
  · rw [if_pos hzero]
    exact sound_unchanged hwf (by simp)
  rw [if_neg hzero]
  by_cases hfull : t.maxRanges ≤ t.ranges.length
  · rw [if_pos hfull]
    by_cases hend : newer.length = t.ranges.length
    · -- The new range would be the oldest one, so it is forgotten at once.
      rw [if_pos hend]
      have hnil : older = [] := by
        rw [hsplit, length_append] at hend
        exact length_eq_zero_iff.mp (by omega)
      rw [hnil, append_nil] at hsplit
      refine ⟨⟨hwf.spaced, hwf.bounded, ?_, hwf.counted⟩, rfl, ?_, fun _ => .inl,
        by intro h; simp at h⟩
      · refine forgetThrough_above hwf.above ?_
        intro r hr
        have := hnewer r (by rw [← hsplit]; exact hr)
        simp only
        omega
      intro n hn
      rcases hn with hn | hn
      · exact .inl (forgetThrough_forgotten.mpr (.inl hn))
      · exact .inr hn
    rw [if_neg hend]
    -- There is an older range, and the last of them gives way.
    have hne : older ≠ [] := by
      rintro rfl
      simp [hsplit] at hend
    obtain ⟨rest, oldest, hlast⟩ : ∃ rest oldest, older = rest ++ [oldest] :=
      ⟨older.dropLast, older.getLast hne, (dropLast_concat_getLast hne).symm⟩
    have hsplit' : t.ranges = (newer ++ rest) ++ [oldest] := by
      rw [hsplit, hlast, append_assoc]
    have hgetLast : t.ranges.getLast? = some oldest := by rw [hsplit']; simp
    rw [hgetLast]
    obtain ⟨hevicted, hranges⟩ := evict_wf hwf hsplit'
    have hforgot' : (t.evictOldest oldest).forgotten pn = false := by
      by_contra hc
      have hc' : (t.forgetThrough oldest.stop).forgotten pn = true := by
        show (t.evictOldest oldest).forgotten pn = true
        simpa using hc
      rcases forgetThrough_forgotten.mp hc' with h | h
      · rw [hforgot] at h; exact Bool.noConfusion h
      · have := holder oldest (by rw [hlast]; simp)
        omega
    have hplaced := placeRange_sound hevicted hranges (by
        rw [hranges]
        have hlen := hwf.bounded
        rw [hsplit', length_append] at hlen
        show _ < t.maxRanges
        simp only [length_singleton] at hlen
        omega) hforgot' hnewer (fun b hb => holder b (by rw [hlast]; simp [hb]))
    refine ⟨hplaced.wf, hplaced.cap, fun n hn => hplaced.keeps n (evict_seen hsplit' hn), ?_,
      fun h => ⟨hnotSeen, (hplaced.fresh h).2⟩⟩
    intro n hn
    have honly := hplaced.only n hn
    rw [hranges] at honly
    rw [hsplit', covers_append]
    exact honly.imp_left .inl
  rw [if_neg hfull]
  by_cases hoom : oom = true
  · rw [if_pos hoom]
    exact sound_unchanged hwf (by simp)
  · rw [if_neg hoom]
    exact placeRange_sound hwf hsplit (by omega) hforgot hnewer holder

/-! ### Extending a range

The new number sits right next to an existing range.  Extending downwards may make
it touch the next older range, which is then merged in; extending upwards never
reaches the newer range, because the scan has already passed that one.
-/

/-- Writing a range that holds one more number, with the gaps around it intact. -/
theorem extendRange_sound (hwf : WF t) {r' : PacketRange} (hsplit : t.ranges = newer ++ r :: older)
    (hgone : t.forgotten pn = false) (hholds : ∀ n, r'.Holds n ↔ r.Holds n ∨ n = pn)
    (hout : ¬ r.Holds pn) (hlen : r'.len = r.len + 1) (hnewer : ∀ a ∈ newer, r'.stop + 2 ≤ a.start)
    (holder : ∀ b ∈ older, b.stop + 2 ≤ r'.start) :
    Sound t pn (.ok true, t.extendRange newer.length r') := by
  have hranges : (t.extendRange newer.length r').ranges = newer ++ r' :: older := by
    show t.ranges.set newer.length _ = _
    rw [hsplit, set_split]
  have hspaced : Spaced (newer ++ r :: older) := by rw [← hsplit]; exact hwf.spaced
  obtain ⟨hn, -, ho, -, -, hno⟩ := Spaced.middle_iff.mp hspaced
  obtain ⟨hlo, hhi⟩ : r'.Holds pn := (hholds pn).mpr (.inr rfl)
  have hnot : ¬ Seen t pn := by
    intro h
    rcases h with h | h
    · rw [hgone] at h; exact Bool.noConfusion h
    rw [hsplit, covers_append, covers_cons] at h
    rcases h with h | h | h
    · exact Spaced.not_covers_of_lt (fun a ha => by have := hnewer a ha; omega) h
    · exact hout h
    · exact Spaced.not_covers_of_gt (fun b hb => by have := holder b hb; omega) h
  refine grow_sound hwf hnot rfl rfl ?_ ?_ ?_ ?_
  · rw [hranges]
    exact Spaced.middle_iff.mpr ⟨hn, hlo.trans hhi, ho, hnewer, holder, hno⟩
  · rw [hranges]
    have hbound := hwf.bounded
    rw [hsplit] at hbound
    simpa using hbound
  · intro n
    rw [hranges, hsplit, covers_append, covers_append, covers_cons, covers_cons, hholds]
    tauto
  rw [hranges]
  show t.retainedPacketCount + 1 = _
  rw [hwf.counted, hsplit]
  simp only [total_append, total_cons]
  omega

lemma extendStop_sound (hwf : WF t) (hsplit : t.ranges = newer ++ r :: older)
    (hgone : t.forgotten pn = false) (hadj : r.stop + 1 = pn)
    (hnewer : ∀ a ∈ newer, pn + 2 ≤ a.start) :
    Sound t pn (.ok true, t.extendRange newer.length { r with stop := pn }) := by
  have hspaced : Spaced (newer ++ r :: older) := by rw [← hsplit]; exact hwf.spaced
  obtain ⟨-, hr, -, -, hro, -⟩ := Spaced.middle_iff.mp hspaced
  refine extendRange_sound hwf hsplit hgone ?_ ?_ ?_ hnewer hro
  · intro n; simp only [Range.Holds]; omega
  · simp only [Range.Holds]; omega
  · simp only [Range.len]; omega

lemma extendStart_sound (hwf : WF t) (hsplit : t.ranges = newer ++ r :: older)
    (hgone : t.forgotten pn = false) (hadj : pn + 1 = r.start)
    (holder : ∀ b ∈ older, b.stop + 2 ≤ pn) :
    Sound t pn (.ok true, t.extendRange newer.length { r with start := pn }) := by
  have hspaced : Spaced (newer ++ r :: older) := by rw [← hsplit]; exact hwf.spaced
  obtain ⟨-, hr, -, hnr, -, -⟩ := Spaced.middle_iff.mp hspaced
  refine extendRange_sound hwf hsplit hgone ?_ ?_ ?_ hnr holder
  · intro n; simp only [Range.Holds]; omega
  · simp only [Range.Holds]; omega
  · simp only [Range.len]; omega

/-- The number closes the gap between two ranges, and they become one. -/
theorem bridge_sound (hwf : WF t) {next : PacketRange}
    (hsplit : t.ranges = newer ++ r :: next :: older) (hgone : t.forgotten pn = false)
    (hup : pn + 1 = r.start) (hdown : next.stop + 1 = pn) (hcap : t'.maxRanges = t.maxRanges)
    (hforget : t'.forgottenThrough = t.forgottenThrough)
    (hranges : t'.ranges = newer ++ ⟨next.start, r.stop⟩ :: older)
    (hkept : t'.retainedPacketCount = t.retainedPacketCount + 1) : Sound t pn (.ok true, t') := by
  have hspaced : Spaced (newer ++ r :: next :: older) := by rw [← hsplit]; exact hwf.spaced
  obtain ⟨hn, hr, hrest, hnr, hro, hno⟩ := Spaced.middle_iff.mp hspaced
  obtain ⟨hnext, hgap, ho⟩ := Spaced.cons_iff.mp hrest
  have hnot : ¬ Seen t pn := by
    intro h
    rcases h with h | h
    · rw [hgone] at h; exact Bool.noConfusion h
    rw [hsplit, covers_append, covers_cons, covers_cons] at h
    rcases h with h | h | h | h
    · exact Spaced.not_covers_of_lt (fun a ha => by have := hnr a ha; omega) h
    · have := h.1; omega
    · have := h.2; omega
    · exact Spaced.not_covers_of_gt (fun b hb => by have := hgap b hb; omega) h
  refine grow_sound hwf hnot hcap hforget ?_ ?_ ?_ ?_
  · rw [hranges]
    exact Spaced.middle_iff.mpr ⟨hn, by simp only; omega, ho, hnr, hgap,
      fun a ha b hb => hno a ha b (by simp [hb])⟩
  · rw [hranges]
    have hlen := hwf.bounded
    rw [hsplit] at hlen
    simp only [length_append, length_cons] at hlen ⊢
    omega
  · intro n
    rw [hranges, hsplit, covers_append, covers_append, covers_cons, covers_cons, covers_cons]
    have : (⟨next.start, r.stop⟩ : PacketRange).Holds n ↔ r.Holds n ∨ next.Holds n ∨ n = pn := by
      simp only [Range.Holds]
      omega
    tauto
  rw [hranges, hkept, hwf.counted, hsplit]
  simp only [total_append, total_cons, Range.len]
  omega

/-! ### The two merges -/

/-- The scan has passed the newer ranges, so extending upwards reaches none of them. -/
theorem mergeForward_extendStop (hsplit : t.ranges = newer ++ r :: older) (hpn : pn ≤ varintMax)
    (hnewer : ∀ a ∈ newer, pn + 2 ≤ a.start) :
    (t.extendRange newer.length { r with stop := pn }).mergeForward newer.length
      = t.extendRange newer.length { r with stop := pn } := by
  have hranges : (t.extendRange newer.length { r with stop := pn }).ranges
      = newer ++ { r with stop := pn } :: older := by
    show t.ranges.set newer.length _ = _
    rw [hsplit, set_split]
  unfold mergeForward
  by_cases hzero : newer.length = 0
  · rw [if_pos hzero]
  rw [if_neg hzero, hranges]
  have hne : newer ≠ [] := by intro h; rw [h] at hzero; exact hzero rfl
  obtain ⟨front, prev, rfl⟩ : ∃ front prev, newer = front ++ [prev] :=
    ⟨newer.dropLast, newer.getLast hne, (dropLast_concat_getLast hne).symm⟩
  have hcur : ((front ++ [prev]) ++ { r with stop := pn } :: older)[(front ++ [prev]).length]?
      = some { r with stop := pn } := by simp
  have hprev : ((front ++ [prev]) ++ { r with stop := pn } :: older)[(front ++ [prev]).length - 1]?
      = some prev := by simp
  rw [hcur, hprev]
  have hgap := hnewer prev (by simp)
  have hapart : rangesOverlapOrAdjacent { r with stop := pn } prev = false := by
    unfold rangesOverlapOrAdjacent
    rw [Bool.or_eq_false_iff]
    refine ⟨by simp only [decide_eq_false_iff_not]; omega, ?_⟩
    by_contra hc
    have := (isImmediatelyBefore_iff' hpn).mp (by simpa using hc)
    omega
  simp only [hapart]
  rfl

/-- Extending downwards, with the merge behind it. -/
theorem mergeBackward_sound (hwf : WF t) (hsplit : t.ranges = newer ++ r :: older)
    (hgone : t.forgotten pn = false) (hpn : pn ≤ varintMax) (hadj : pn + 1 = r.start) :
    Sound t pn (.ok true,
      (t.extendRange newer.length { r with start := pn }).mergeBackward newer.length) := by
  have hranges : (t.extendRange newer.length { r with start := pn }).ranges
      = newer ++ { r with start := pn } :: older := by
    show t.ranges.set newer.length _ = _
    rw [hsplit, set_split]
  have hspaced : Spaced (newer ++ r :: older) := by rw [← hsplit]; exact hwf.spaced
  obtain ⟨-, hr, hrest, -, hro, -⟩ := Spaced.middle_iff.mp hspaced
  unfold mergeBackward
  rw [hranges]
  cases older with
  | nil =>
    rw [if_pos (by simp)]
    exact extendStart_sound hwf hsplit hgone hadj (by simp)
  | cons next rest =>
    obtain ⟨-, hgap, -⟩ := Spaced.cons_iff.mp hrest
    have hnext := hro next (by simp)
    rw [if_neg (by simp)]
    have hcur : (newer ++ { r with start := pn } :: next :: rest)[newer.length]?
        = some { r with start := pn } := by simp
    have hnxt : (newer ++ { r with start := pn } :: next :: rest)[newer.length + 1]?
        = some next := by simp
    rw [hcur, hnxt]
    have hord : next.start ≤ next.stop := hrest.ordered next (by simp)
    have htouch : rangesOverlapOrAdjacent next { r with start := pn } = true ↔
        next.stop + 1 = pn := by
      unfold rangesOverlapOrAdjacent
      rw [Bool.or_eq_true, isImmediatelyBefore_iff hpn, decide_eq_true_iff]
      constructor
      · intro h
        rcases h with h | h
        · simp only at h; omega
        · exact h
      · intro h; exact .inr h
    by_cases hmerge : next.stop + 1 = pn
    · simp only [htouch.mpr hmerge]
      refine bridge_sound hwf hsplit hgone hadj hmerge rfl rfl ?_ rfl
      have hmin : min pn next.start = next.start := by omega
      have hmax : max r.stop next.stop = r.stop := by omega
      rw [hmin, hmax]
      have := eraseIdx_split (newer ++ [⟨next.start, r.stop⟩]) rest next
      simpa using this
    have hfalse : rangesOverlapOrAdjacent next { r with start := pn } = false := by
      by_contra hc
      exact hmerge (htouch.mp (by simpa using hc))
    simp only [hfalse]
    refine extendStart_sound hwf hsplit hgone hadj ?_
    intro b hb
    rcases mem_cons.mp hb with rfl | hb
    · omega
    · have := hgap b hb
      omega

/-! ### Recording a packet number -/

/-- The scan, with the ranges it has passed all well above the number. -/
theorem scanRanges_sound (hwf : WF t) (oom : Bool) (hgone : t.forgotten pn = false)
    (hpn : pn ≤ varintMax) :
    ∀ (rest newer : List PacketRange), t.ranges = newer ++ rest → (∀ a ∈ newer, pn + 2 ≤ a.start) →
      Sound t pn (t.scanRanges oom pn rest newer.length) := by
  intro rest
  induction rest with
  | nil =>
    intro newer hsplit hnewer
    have hlen : t.ranges.length = newer.length := by rw [hsplit]; simp
    unfold scanRanges
    rw [hlen]
    exact insertRange_sound hwf oom hsplit hgone hnewer (by simp)
  | cons r older ih =>
    intro newer hsplit hnewer
    have hspaced : Spaced (newer ++ r :: older) := by rw [← hsplit]; exact hwf.spaced
    obtain ⟨-, hr, -, -, hro, -⟩ := Spaced.middle_iff.mp hspaced
    unfold scanRanges
    by_cases hin : r.start ≤ pn ∧ pn ≤ r.stop
    · rw [if_pos hin]
      exact sound_unchanged hwf (by simp)
    rw [if_neg hin]
    by_cases hup : isImmediatelyBefore r.stop pn = true
    · rw [if_pos hup, mergeForward_extendStop hsplit hpn hnewer]
      exact extendStop_sound hwf hsplit hgone ((isImmediatelyBefore_iff hpn).mp hup) hnewer
    rw [if_neg hup]
    by_cases hdown : isImmediatelyBefore pn r.start = true
    · rw [if_pos hdown]
      exact mergeBackward_sound hwf hsplit hgone hpn ((isImmediatelyBefore_iff' hpn).mp hdown)
    rw [if_neg hdown]
    rw [isImmediatelyBefore_iff hpn] at hup
    rw [isImmediatelyBefore_iff' hpn] at hdown
    by_cases habove : r.stop < pn
    · rw [if_pos habove]
      refine insertRange_sound hwf oom hsplit hgone hnewer ?_
      intro b hb
      rcases mem_cons.mp hb with rfl | hb
      · omega
      · have := hro b hb
        omega
    rw [if_neg habove]
    have := ih (newer ++ [r]) (by rw [hsplit]; simp) (by
      intro a ha
      rcases mem_append.mp ha with ha | ha
      · exact hnewer a ha
      · rw [mem_singleton.mp ha]
        omega)
    simpa using this

lemma recordBelowNewest_sound (hwf : WF t) (oom : Bool) (hgone : t.forgotten pn = false)
    (hpn : pn ≤ varintMax) (hsplit : t.ranges = newer ++ [oldest]) :
    Sound t pn (t.recordBelowNewest oom pn oldest) := by
  have hspaced : Spaced (newer ++ [oldest]) := by rw [← hsplit]; exact hwf.spaced
  obtain ⟨-, hr, -, hnr, -, -⟩ := Spaced.middle_iff.mp hspaced
  have hlast : t.ranges.length - 1 = newer.length := by rw [hsplit]; simp
  unfold recordBelowNewest
  by_cases hbelow : pn < oldest.start
  · rw [if_pos hbelow]
    by_cases hdown : isImmediatelyBefore pn oldest.start = true
    · rw [if_pos hdown, hlast]
      exact extendStart_sound hwf hsplit hgone ((isImmediatelyBefore_iff' hpn).mp hdown) (by simp)
    rw [if_neg hdown]
    rw [isImmediatelyBefore_iff' hpn] at hdown
    have hend : t.ranges = (newer ++ [oldest]) ++ [] := by rw [hsplit]; simp
    have hlen : t.ranges.length = (newer ++ [oldest]).length := by rw [hsplit]
    rw [hlen]
    refine insertRange_sound hwf oom hend hgone ?_ (by simp)
    intro a ha
    rcases mem_append.mp ha with ha | ha
    · have := hnr a ha
      omega
    · rw [mem_singleton.mp ha]
      omega
  rw [if_neg hbelow]
  by_cases hin : pn ≤ oldest.stop
  · rw [if_pos hin]
    exact sound_unchanged hwf (by simp)
  · rw [if_neg hin]
    exact scanRanges_sound hwf oom hgone hpn t.ranges [] rfl (by simp)

/-- **Recording a packet number is sound.** -/
theorem recordFresh_sound (hwf : WF t) (oom : Bool) (pn : Nat) :
    Sound t pn (t.recordFresh oom pn) := by
  unfold recordFresh
  by_cases hbig : varintMax < pn
  · rw [if_pos hbig]
    exact sound_unchanged hwf (by simp)
  rw [if_neg hbig]
  have hpn : pn ≤ varintMax := not_lt.mp hbig
  by_cases hforgot : t.forgotten pn = true
  · rw [if_pos hforgot]
    exact sound_unchanged hwf (by simp)
  rw [if_neg hforgot]
  have hforgot' : t.forgotten pn = false := by simpa using hforgot
  split
  · rename_i hranges
    have hsplit : t.ranges = [] ++ [] := hranges
    exact insertRange_sound hwf oom hsplit hforgot' (by simp) (by simp)
  rename_i newest older hranges
  have hsplit : t.ranges = [] ++ newest :: older := hranges
  have hspaced : Spaced ([] ++ newest :: older) := by rw [← hsplit]; exact hwf.spaced
  obtain ⟨-, hr, -, -, hro, -⟩ := Spaced.middle_iff.mp hspaced
  by_cases habove : newest.stop < pn
  · rw [if_pos habove]
    by_cases hup : isImmediatelyBefore newest.stop pn = true
    · rw [if_pos hup]
      exact extendStop_sound hwf hsplit hforgot' ((isImmediatelyBefore_iff hpn).mp hup) (by simp)
    rw [if_neg hup]
    rw [isImmediatelyBefore_iff hpn] at hup
    refine insertRange_sound hwf oom hsplit hforgot' (by simp) ?_
    intro b hb
    rcases mem_cons.mp hb with rfl | hb
    · omega
    · have := hro b hb
      omega
  rw [if_neg habove]
  by_cases hin : newest.start ≤ pn
  · rw [if_pos hin]
    exact sound_unchanged hwf (by simp)
  rw [if_neg hin]
  have hlast : t.ranges
      = (newest :: older).dropLast ++ [(newest :: older).getLast (by simp)] := by
    rw [hranges]
    exact (dropLast_concat_getLast (by simp)).symm
  exact recordBelowNewest_sound hwf oom hforgot' hpn hlast

lemma recordEcn_frame (t : ReceivedPacketTracker) (ecn : EcnCodepoint) :
    (t.recordEcn ecn).ranges = t.ranges ∧ (t.recordEcn ecn).maxRanges = t.maxRanges ∧
    (t.recordEcn ecn).forgottenThrough = t.forgottenThrough ∧
    (t.recordEcn ecn).retainedPacketCount = t.retainedPacketCount := by
  cases ecn <;> exact ⟨rfl, rfl, rfl, rfl⟩

/-- The ECN counters are beside the point: a tracker that differs only there is as good. -/
theorem sound_of_frame {t₁ t₂ : ReceivedPacketTracker} (h : Sound t pn (res, t₁))
    (hranges : t₂.ranges = t₁.ranges) (hmax : t₂.maxRanges = t₁.maxRanges)
    (hgone : t₂.forgottenThrough = t₁.forgottenThrough)
    (hkept : t₂.retainedPacketCount = t₁.retainedPacketCount) : Sound t pn (res, t₂) := by
  have hseen : ∀ n, Seen t₁ n → Seen t₂ n := by simp [hranges, hgone, Seen, forgotten]
  refine ⟨⟨?_, ?_, ?_, ?_⟩, hmax.trans h.cap, fun n hn => hseen n (h.keeps n hn),
    fun n hn => h.only n (hranges ▸ hn), fun hres => ⟨(h.fresh hres).1, hseen pn (h.fresh hres).2⟩⟩
  · show Spaced t₂.ranges
    rw [hranges]; exact h.wf.spaced
  · show t₂.ranges.length ≤ t₂.maxRanges
    rw [hranges, hmax]; exact h.wf.bounded
  · show ∀ through, t₂.forgottenThrough = some through → ∀ r ∈ t₂.ranges, through < r.start
    rw [hranges, hgone]; exact h.wf.above
  · show t₂.retainedPacketCount = total t₂.ranges
    rw [hranges, hkept]; exact h.wf.counted

lemma recordWithEcn_sound (hwf : WF t) (oom : Bool) (pn : Nat) (ecn : EcnCodepoint) :
    Sound t pn (t.recordWithEcn oom pn ecn) := by
  have h := recordFresh_sound hwf oom pn
  unfold recordWithEcn
  rcases hrec : t.recordFresh oom pn with ⟨res, t'⟩
  rw [hrec] at h
  cases res with
  | error e => exact h
  | ok fresh =>
    by_cases hcount : (fresh && ecn != .notEct) = true
    · simp only [hcount]
      obtain ⟨hranges, hmax, hgone, hkept⟩ := recordEcn_frame t' ecn
      exact sound_of_frame h hranges hmax hgone hkept
    · simp [hcount, h]

/-! ### Pruning what the peer has acknowledged -/

/-- What the pruning loop leaves of a list read oldest first. -/
structure Pruned (largest : Nat) (before after : List PacketRange) : Prop where
  spaced : Spaced after.reverse
  shorter : after.length ≤ before.length
  above : ∀ r ∈ after, largest < r.start
  from_old : ∀ r ∈ after, ∃ q ∈ before, q.start ≤ r.start ∧ r.stop = q.stop
  keeps : ∀ n, Covers before n → n ≤ largest ∨ Covers after n

lemma pruneOldest_spec (largest : Nat) :
    ∀ (oldestFirst : List PacketRange) (count : Nat), Spaced oldestFirst.reverse →
      count = total oldestFirst →
      Pruned largest oldestFirst (pruneOldest largest oldestFirst count).1 ∧
        (pruneOldest largest oldestFirst count).2
          = total (pruneOldest largest oldestFirst count).1 := by
  intro oldestFirst
  induction oldestFirst with
  | nil =>
    intro count hspaced hcount
    exact ⟨⟨hspaced, le_rfl, by simp [pruneOldest], by simp [pruneOldest],
      fun n hn => .inr hn⟩, hcount⟩
  | cons oldest newer ih =>
    intro count hspaced hcount
    rw [reverse_cons] at hspaced
    obtain ⟨hnewer, hold, hgap⟩ := Spaced.append_iff.mp hspaced
    have hgap' : ∀ r ∈ newer, oldest.stop + 2 ≤ r.start := by
      intro r hr
      exact hgap r (by simpa using hr) oldest (by simp)
    rw [total_cons] at hcount
    unfold pruneOldest
    by_cases hgone : oldest.stop ≤ largest
    · -- The whole range is acknowledged, and the loop goes on to the next one.
      rw [if_pos hgone]
      obtain ⟨hp, hc⟩ := ih (count - oldest.len) hnewer (by omega)
      refine ⟨⟨hp.spaced, Nat.le_succ_of_le hp.shorter, hp.above, ?_, ?_⟩, hc⟩
      · intro r hr
        obtain ⟨q, hq, hle⟩ := hp.from_old r hr
        exact ⟨q, by simp [hq], hle⟩
      intro n hn
      rcases (covers_cons oldest newer n).mp hn with h | h
      · exact .inl (Nat.le_trans h.2 hgone)
      · exact hp.keeps n h
    rw [if_neg hgone]
    by_cases hcut : oldest.start ≤ largest
    · rw [if_pos hcut]
      refine ⟨⟨?_, by simp, ?_, ?_, ?_⟩, ?_⟩
      · rw [reverse_cons]
        refine Spaced.append_iff.mpr ⟨hnewer, ?_, ?_⟩
        · exact Spaced.cons_iff.mpr ⟨by simp only; omega, by simp, Spaced.nil⟩
        intro a ha b hb
        rw [mem_singleton.mp hb]
        exact hgap' a (by simpa using ha)
      · intro r hr
        rcases mem_cons.mp hr with rfl | hr
        · simp only; omega
        · have := hgap' r hr
          omega
      · intro r hr
        rcases mem_cons.mp hr with rfl | hr
        · exact ⟨oldest, by simp, by simp only; omega, rfl⟩
        · exact ⟨r, by simp [hr], le_rfl, rfl⟩
      · intro n hn
        rcases (covers_cons oldest newer n).mp hn with h | h
        · by_cases hle : n ≤ largest
          · exact .inl hle
          refine .inr ((covers_cons _ _ _).mpr (.inl ⟨?_, h.2⟩))
          simp only
          omega
        · exact .inr ((covers_cons _ _ _).mpr (.inr h))
      · simp only [total_cons, Range.len] at hcount ⊢
        omega
    rw [if_neg hcut]
    refine ⟨⟨by rw [reverse_cons]; exact hspaced, le_rfl, ?_, ?_,
      fun n hn => .inr hn⟩, by rw [total_cons]; exact hcount⟩
    · intro r hr
      rcases mem_cons.mp hr with rfl | hr
      · omega
      · have := hgap' r hr
        omega
    · intro r hr
      exact ⟨r, hr, le_rfl, rfl⟩

/-- **Pruning keeps the invariant and forgets nothing it had seen.** -/
theorem pruneAckedRanges_sound (hwf : WF t) (largest : Nat) :
    WF (t.pruneAckedRanges largest) ∧
    (t.pruneAckedRanges largest).maxRanges = t.maxRanges ∧
    (∀ n, Covers (t.pruneAckedRanges largest).ranges n → Covers t.ranges n) ∧
    ∀ n, Seen t n → Seen (t.pruneAckedRanges largest) n := by
  have hspaced : Spaced t.ranges.reverse.reverse := by
    rw [reverse_reverse]; exact hwf.spaced
  obtain ⟨hp, hc⟩ := pruneOldest_spec largest t.ranges.reverse t.retainedPacketCount hspaced
    (by rw [hwf.counted, total_reverse])
  unfold pruneAckedRanges
  simp only [forgetThrough_ranges]
  cases hlast : t.ranges.getLast? with
  | none =>
    have hnil : t.ranges = [] := getLast?_eq_none_iff.mp hlast
    refine ⟨⟨hwf.spaced, hwf.bounded, ?_, hwf.counted⟩, rfl, fun _ hn => hn, ?_⟩
    · simp [hnil]
    intro n hn
    rcases hn with hn | hn
    · exact .inl (forgetThrough_forgotten.mpr (.inl hn))
    · exact .inr hn
  | some oldest =>
    simp only
    by_cases hbelow : largest < oldest.start
    · rw [if_pos hbelow]
      obtain ⟨front, hfront⟩ := getLast?_eq_some_iff.mp hlast
      have hsp : Spaced (front ++ [oldest]) := by rw [← hfront]; exact hwf.spaced
      obtain ⟨-, hold, hgap⟩ := Spaced.append_iff.mp hsp
      have hord : oldest.start ≤ oldest.stop := hold.ordered oldest (by simp)
      refine ⟨⟨hwf.spaced, hwf.bounded, ?_, hwf.counted⟩, rfl, fun _ hn => hn, ?_⟩
      · refine forgetThrough_above hwf.above ?_
        intro r hr
        rw [forgetThrough_ranges, hfront] at hr
        rcases mem_append.mp hr with hr | hr
        · have := hgap r hr oldest (by simp)
          omega
        · simp [mem_singleton.mp hr, hbelow]
      intro n hn
      rcases hn with hn | hn
      · exact .inl (forgetThrough_forgotten.mpr (.inl hn))
      · exact .inr hn
    rw [if_neg hbelow]
    refine ⟨⟨hp.spaced, ?_, ?_, ?_⟩, rfl, ?_, ?_⟩
    · show (pruneOldest largest t.ranges.reverse t.retainedPacketCount).1.reverse.length
        ≤ t.maxRanges
      have hlen := hp.shorter
      have hbound := hwf.bounded
      rw [length_reverse] at hlen ⊢
      omega
    · refine forgetThrough_above (t := t) ?_ ?_
      · intro through hthrough r hr
        obtain ⟨q, hq, hle, -⟩ := hp.from_old r (by simpa using hr)
        have := hwf.above through hthrough q (by simpa using hq)
        omega
      · intro r hr
        exact hp.above r (by simpa using hr)
    · simp [hc]
    · rintro n ⟨r, hr, hlo, hhi⟩
      obtain ⟨q, hq, hle, hstop⟩ := hp.from_old r (by simpa using hr)
      exact ⟨q, by simpa using hq, hle.trans hlo, hstop ▸ hhi⟩
    intro n hn
    rcases hn with hn | hn
    · exact .inl (forgetThrough_forgotten.mpr (.inl hn))
    rcases hp.keeps n (by simpa using hn) with h | h
    · exact .inl (forgetThrough_forgotten.mpr (.inr h))
    · exact .inr (by simpa using h)

/-! ### Every run -/

/-- What one call of any kind may do. -/
structure Kept (t : ReceivedPacketTracker) (op : Op)
    (r : Except Error Bool × ReceivedPacketTracker) : Prop where
  wf : WF r.2
  cap : r.2.maxRanges = t.maxRanges
  keeps : ∀ n, Seen t n → Seen r.2 n
  only : ∀ n, Covers r.2.ranges n → Covers t.ranges n ∨ op.packetNumber? = some n
  fresh : ∀ pn, op.packetNumber? = some pn → r.1 = .ok true → ¬ Seen t pn ∧ Seen r.2 pn

lemma step_kept (hwf : WF t) (op : Op) : Kept t op (t.step op) := by
  have of_sound : ∀ {pn r}, op.packetNumber? = some pn → Sound t pn r → Kept t op r := by
    intro pn r hop h
    refine ⟨h.wf, h.cap, h.keeps, ?_, ?_⟩
    · intro n hn
      rw [hop, Option.some.injEq, eq_comm]
      exact h.only n hn
    intro pn' hop' hres
    rw [hop, Option.some.injEq] at hop'
    subst hop'
    exact h.fresh hres
  cases op with
  | recordFresh oom pn => exact of_sound rfl (recordFresh_sound hwf oom pn)
  | recordWithEcn oom pn ecn => exact of_sound rfl (recordWithEcn_sound hwf oom pn ecn)
  | pruneAckedRanges largest =>
    obtain ⟨hkept, hcap, honly, hseen⟩ := pruneAckedRanges_sound hwf largest
    exact ⟨hkept, hcap, hseen, fun n hn => .inl (honly n hn),
      fun pn hop => by simp [Op.packetNumber?] at hop⟩

/-- How often a run has answered "fresh" to a packet number. -/
def freshCount (pn : Nat)
    (events : List (Event ReceivedPacketTracker Op (Except Error Bool))) : Nat :=
  events.countP fun e => e.input.packetNumber? == some pn && e.output == .ok true

/-- What the history of a run says about the tracker it reached. -/
structure RunInv (maxRanges : Nat)
    (events : List (Event ReceivedPacketTracker Op (Except Error Bool)))
    (t : ReceivedPacketTracker) : Prop where
  wf : WF t
  cap : t.maxRanges = maxRanges
  /-- A number answered "fresh" is seen from then on. -/
  seen : ∀ pn, 0 < freshCount pn events → Seen t pn
  once : ∀ pn, freshCount pn events ≤ 1

lemma runInv_step {maxRanges : Nat}
    {events : List (Event ReceivedPacketTracker Op (Except Error Bool))}
    (h : RunInv maxRanges events t) (op : Op) :
    RunInv maxRanges (events ++ [event step t op]) (t.step op).2 := by
  have hk := step_kept h.wf op
  have hcount : ∀ pn, freshCount pn (events ++ [event step t op]) = freshCount pn events +
      if op.packetNumber? = some pn ∧ (t.step op).1 = .ok true then 1 else 0 := by
    simp [freshCount, event, countP_singleton]
  refine ⟨hk.wf, hk.cap.trans h.cap, ?_, ?_⟩
  · intro pn hpos
    rw [hcount] at hpos
    by_cases hnew : op.packetNumber? = some pn ∧ (t.step op).1 = .ok true
    · exact (hk.fresh pn hnew.1 hnew.2).2
    · rw [if_neg hnew] at hpos
      exact hk.keeps pn (h.seen pn hpos)
  intro pn
  rw [hcount]
  have hold := h.once pn
  by_cases hnew : op.packetNumber? = some pn ∧ (t.step op).1 = .ok true
  · -- A number answered before is seen, and a seen number is not answered again.
    rw [if_pos hnew]
    have hunseen := (hk.fresh pn hnew.1 hnew.2).1
    have hzero : freshCount pn events = 0 := by
      by_contra hne
      exact hunseen (h.seen pn (Nat.pos_of_ne_zero hne))
    omega
  · rw [if_neg hnew]
    omega

/--
**Replay protection.**  Whatever packet numbers arrive in whatever order, with
pruning anywhere between them, each one is answered "fresh" at most once, and the
tracker stays well formed.
-/
theorem received_packets_once (maxRanges : Nat) (ops : List Op) :
    (∀ pn, freshCount pn (trace step (init maxRanges) ops) ≤ 1) ∧
    (exec step (init maxRanges) ops).maxRanges = maxRanges ∧
    WF (exec step (init maxRanges) ops) := by
  have hinit : RunInv maxRanges [] (init maxRanges) :=
    ⟨init_wf maxRanges, rfl, by intro pn h; simp [freshCount] at h, by intro pn; simp [freshCount]⟩
  have h := trace_induction step (fun _ _ => True) (RunInv maxRanges) hinit
    (fun _ _ op hi _ => runInv_step hi op) ops (fun _ _ => trivial)
  exact ⟨h.once, h.cap, h.wf⟩

/-- Two ranges are allowed and three are needed: the lowest one goes, and stays gone. -/
example :
    let t := exec step (init 2) [.recordFresh false 5, .recordFresh false 1, .recordFresh false 9]
    t.ranges = [⟨9, 9⟩, ⟨5, 5⟩] ∧ t.forgottenThrough = some 1 ∧
      (t.recordFresh false 1).1 = .ok false := by decide

/-! ### The query

`wouldRecordFresh` decides again what `recordFresh` decides on its way.  It cannot know what the
allocator will say, so the two part only where a range is new and there is no memory for it.
-/

/-- The answer of a call as the query foretells it, or the allocator's refusal of a new range. -/
def Foretold (oom : Bool) (answer foretold : Except Error Bool) : Prop :=
  answer = foretold ∨ oom = true ∧ answer = .error .outOfMemory ∧ foretold = .ok true

lemma Foretold.same (oom : Bool) (answer : Except Error Bool) : Foretold oom answer answer :=
  .inl rfl

/-- A new range in front of an older one finds a place, if need be that of the oldest. -/
theorem insertRange_foretold_before (oom : Bool) {index : Nat} (range : PacketRange)
    (hcap : t.maxRanges ≠ 0) (hidx : index < t.ranges.length) :
    Foretold oom (t.insertRange oom index range).1 (.ok true) := by
  unfold insertRange
  rw [if_neg hcap]
  by_cases hfull : t.maxRanges ≤ t.ranges.length
  · rw [if_pos hfull, if_neg (by omega)]
    obtain ⟨oldest, holdest⟩ : ∃ oldest, t.ranges.getLast? = some oldest := by
      have hne : t.ranges ≠ [] := by
        intro hnil
        simp [hnil] at hidx
      exact ⟨_, getLast?_eq_some_getLast hne⟩
    rw [holdest]
    exact Foretold.same oom _
  rw [if_neg hfull]
  by_cases hoom : oom = true
  · rw [if_pos hoom]
    exact .inr ⟨hoom, rfl, rfl⟩
  · rw [if_neg hoom]
    exact Foretold.same oom _

/-- A new oldest range finds a place only where one is free. -/
theorem insertRange_foretold_last (oom : Bool) (range : PacketRange) (hcap : t.maxRanges ≠ 0) :
    Foretold oom (t.insertRange oom t.ranges.length range).1
      (.ok (decide (t.ranges.length < t.maxRanges))) := by
  unfold insertRange
  rw [if_neg hcap]
  by_cases hfull : t.maxRanges ≤ t.ranges.length
  · rw [if_pos hfull, if_pos rfl, decide_eq_false (by omega)]
    exact Foretold.same oom _
  rw [if_neg hfull, decide_eq_true (by omega)]
  by_cases hoom : oom = true
  · rw [if_pos hoom]
    exact .inr ⟨hoom, rfl, rfl⟩
  · rw [if_neg hoom]
    exact Foretold.same oom _

lemma scanRanges_foretold (oom : Bool) (pn : Nat) (hcap : t.maxRanges ≠ 0)
    (rest : List PacketRange) (index : Nat) (hidx : index + rest.length = t.ranges.length) :
    Foretold oom (t.scanRanges oom pn rest index).1 (.ok (t.wouldScanRanges pn rest)) := by
  induction rest generalizing index with
  | nil =>
    unfold scanRanges wouldScanRanges
    exact insertRange_foretold_last oom _ hcap
  | cons range rest ih =>
    rw [length_cons] at hidx
    unfold scanRanges wouldScanRanges
    by_cases hin : range.start ≤ pn ∧ pn ≤ range.stop
    · rw [if_pos hin, if_pos hin]
      exact Foretold.same oom _
    rw [if_neg hin, if_neg hin]
    by_cases hup : isImmediatelyBefore range.stop pn = true
    · rw [if_pos hup, if_pos hup]
      exact Foretold.same oom _
    rw [if_neg hup, if_neg hup]
    by_cases hdown : isImmediatelyBefore pn range.start = true
    · rw [if_pos hdown, if_pos hdown]
      exact Foretold.same oom _
    rw [if_neg hdown, if_neg hdown]
    by_cases habove : range.stop < pn
    · rw [if_pos habove, if_pos habove]
      exact insertRange_foretold_before oom _ hcap (by omega)
    · rw [if_neg habove, if_neg habove]
      exact ih (index + 1) (by omega)

/-- **The query and the call decide alike**, in every well-formed state. -/
theorem recordFresh_foretold (hwf : WF t) (oom : Bool) (pn : Nat) :
    Foretold oom (t.recordFresh oom pn).1 (t.wouldRecordFresh pn) := by
  unfold recordFresh wouldRecordFresh
  by_cases hpn : varintMax < pn
  · rw [if_pos hpn, if_pos hpn]
    exact Foretold.same oom _
  rw [if_neg hpn, if_neg hpn]
  have hbnd := hwf.bounded
  cases hranges : t.ranges with
  | nil =>
    by_cases hcap : t.maxRanges = 0
    · rw [if_pos hcap]
      by_cases hgone : t.forgotten pn = true
      · rw [if_pos hgone]
        exact Foretold.same oom _
      rw [if_neg hgone]
      unfold insertRange
      rw [if_pos hcap]
      exact Foretold.same oom _
    rw [if_neg hcap]
    by_cases hgone : t.forgotten pn = true
    · rw [if_pos hgone, if_pos hgone]
      exact Foretold.same oom _
    rw [if_neg hgone, if_neg hgone]
    have hlast := insertRange_foretold_last (t := t) oom ⟨pn, pn⟩ hcap
    rw [hranges, length_nil, decide_eq_true (by omega)] at hlast
    exact hlast
  | cons newest older =>
    have hcap : t.maxRanges ≠ 0 := by
      rw [hranges, length_cons] at hbnd
      omega
    rw [if_neg hcap]
    by_cases hgone : t.forgotten pn = true
    · rw [if_pos hgone, if_pos hgone]
      exact Foretold.same oom _
    rw [if_neg hgone, if_neg hgone]
    dsimp only
    by_cases hnewest : newest.stop < pn
    · rw [if_pos hnewest, if_pos hnewest]
      by_cases hup : isImmediatelyBefore newest.stop pn = true
      · rw [if_pos hup]
        exact Foretold.same oom _
      · rw [if_neg hup]
        exact insertRange_foretold_before oom _ hcap (by rw [hranges]; simp)
    rw [if_neg hnewest, if_neg hnewest]
    by_cases hin : newest.start ≤ pn
    · rw [if_pos hin, if_pos hin]
      exact Foretold.same oom _
    rw [if_neg hin, if_neg hin]
    unfold recordBelowNewest
    by_cases hbelow : pn < ((newest :: older).getLast (by simp)).start
    · rw [if_pos hbelow, if_pos hbelow]
      by_cases hdown : isImmediatelyBefore pn ((newest :: older).getLast (by simp)).start = true
      · rw [if_pos hdown, if_pos hdown]
        exact Foretold.same oom _
      · rw [if_neg hdown, if_neg hdown, ← hranges]
        exact insertRange_foretold_last oom _ hcap
    rw [if_neg hbelow, if_neg hbelow]
    by_cases holdest : pn ≤ ((newest :: older).getLast (by simp)).stop
    · rw [if_pos holdest, if_pos holdest]
      exact Foretold.same oom _
    · rw [if_neg holdest, if_neg holdest, ← hranges]
      exact scanRanges_foretold oom pn hcap t.ranges 0 (Nat.zero_add _)

/--
**The query of the receive path is right.**  In every state a run reaches, `wouldRecordFresh` says
what `recordFresh` answers there, and with an allocator that refuses the two part only in that the
call reports the refusal of a packet number the query finds fresh.
-/
theorem wouldRecordFresh_foretells (maxRanges : Nat) (ops : List Op) (pn : Nat) :
    ((exec step (init maxRanges) ops).recordFresh false pn).1 =
        (exec step (init maxRanges) ops).wouldRecordFresh pn ∧
      Foretold true ((exec step (init maxRanges) ops).recordFresh true pn).1
        ((exec step (init maxRanges) ops).wouldRecordFresh pn) := by
  have hwf := exec_induction step WF (init_wf maxRanges) (fun t op h => (step_kept h op).wf) ops
  refine ⟨?_, recordFresh_foretold hwf true pn⟩
  rcases recordFresh_foretold hwf false pn with hsame | ⟨hoom, -, -⟩
  · exact hsame
  · simp at hoom

end Netz.Quic.ReceivedPacketTracker
