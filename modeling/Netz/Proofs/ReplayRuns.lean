/-
The replay filter is sound over every run.

A run is a list of checks, explicit prunings and restarts out of an exported snapshot, at times
that do not decrease.  Every call does to the unexpired entries what it should, and an accepted key
is rejected until it expires, or until it makes room in a full filter.

Nothing is assumed of the digest.
-/
import Netz.Proofs.ReplayFilter
import Netz.Lib.Machine

namespace Netz.Quic.ReplayFilter

open Lib ReplayFilter.Filter List

inductive Call where
  | checkAndMark (replayKey : Bytes) (nowMs expiresAtMs : Nat) (room : Room)
  | pruneExpired (nowMs : Nat)
  /-- `exportSnapshot`, then `initWithSnapshot`; where one fails the filter stays. -/
  | restart (maxEntries nowMs : Nat) (exportRoom : Bool) (rooms : Nat → Room)

def Call.nowMs : Call → Nat
  | .checkAndMark _ nowMs _ _ => nowMs
  | .pruneExpired nowMs => nowMs
  | .restart _ nowMs _ _ => nowMs

variable {κ : Type} [DecidableEq κ]

def restart (filter : Filter κ) (maxEntries nowMs : Nat) (exportRoom : Bool)
    (rooms : Nat → Room) : Except Error (Filter κ) := do
  let snapshot ← filter.exportSnapshot exportRoom
  initWithSnapshot maxEntries snapshot nowMs rooms

def step (digest : Bytes → κ) (filter : Filter κ) : Call → Except Error Unit × Filter κ
  | .checkAndMark replayKey nowMs expiresAtMs room =>
    filter.checkAndMark digest replayKey nowMs expiresAtMs room
  | .pruneExpired nowMs =>
    ((filter.pruneExpired nowMs).1.map fun _ => (), (filter.pruneExpired nowMs).2)
  | .restart maxEntries nowMs exportRoom rooms =>
    filter.settle (restart filter maxEntries nowMs exportRoom rooms)

/-! ### One call -/

/-- What a call answers, and what it does to the entries. -/
def Does (digest : Bytes → κ) (filter : Filter κ) (result : Except Error Unit)
    (next : Filter κ) : Call → Prop
  | .checkAndMark replayKey nowMs expiresAtMs room =>
    next.maxEntries = filter.maxEntries ∧
      if replayKey.length = 0 ∨ expiresAtMs ≤ nowMs then
        result = .error .invalidReplayKey ∧ next = filter
      else Filter.Marks (live nowMs filter.entries) filter.maxEntries
        { key := digest replayKey, expiresAtMs := expiresAtMs } room result next.entries
  | .pruneExpired nowMs =>
    result = .ok () ∧ next.maxEntries = filter.maxEntries ∧
      next.entries.Perm (live nowMs filter.entries)
  | .restart maxEntries nowMs exportRoom rooms =>
    match result with
    | .error e => (e = .invalidCapacity ∧ maxEntries = 0 ∨ e = .outOfMemory ∧
        (exportRoom = false ∨ ∃ n, (rooms n).index = false ∨ (rooms n).entries = false)) ∧
      next = filter
    | .ok () => next.maxEntries = maxEntries ∧
      Filter.Keeps (live nowMs filter.entries) maxEntries next.entries

/-- A call that fails drops at most what has expired. -/
def Unchanged (nowMs : Nat) (filter next : Filter κ) : Prop :=
  next.maxEntries = filter.maxEntries ∧
    (next = filter ∨ next.entries.Perm (live nowMs filter.entries))

variable {filter : Filter κ} {call : Call} {entry : Entry κ} {replayKey : Bytes}
  {nowMs expiresAtMs : Nat} {room : Room}

lemma step_does (h : filter.Sound) (digest : Bytes → κ) (call : Call) :
    (step digest filter call).2.Sound ∧
      Does digest filter (step digest filter call).1 (step digest filter call).2 call := by
  cases call with
  | checkAndMark replayKey nowMs expiresAtMs room =>
    obtain ⟨hsound, hmax, hdoes⟩ := h.checkAndMark digest replayKey nowMs expiresAtMs room
    refine ⟨hsound, hmax, ?_⟩
    by_cases hbad : replayKey.length = 0 ∨ expiresAtMs ≤ nowMs
    · rw [if_pos hbad] at hdoes ⊢
      exact ⟨congrArg Prod.fst hdoes, congrArg Prod.snd hdoes⟩
    · rw [if_neg hbad] at hdoes ⊢
      exact hdoes
  | pruneExpired nowMs =>
    obtain ⟨count, pruned, hprune, hsound, hperm, hmax⟩ :=
      @Filter.Sound.pruneExpired _ _ nowMs filter h
    have hcall : filter.pruneExpired nowMs = (.ok count, pruned) := by
      unfold pruneExpired
      rw [hprune]
    unfold step
    dsimp only
    rw [hcall]
    exact ⟨hsound, rfl, hmax, hperm⟩
  | restart maxEntries nowMs exportRoom rooms =>
    have hinit := h.initWithSnapshot maxEntries nowMs rooms
    unfold step restart exportSnapshot
    cases exportRoom with
    | false => exact ⟨h, .inr ⟨rfl, .inl rfl⟩, rfl⟩
    | true =>
      dsimp only [bind, Except.bind]
      rw [if_pos rfl]
      dsimp only
      cases hrestore : initWithSnapshot maxEntries filter.entries nowMs rooms with
      | error e =>
        rw [hrestore] at hinit
        exact ⟨h, hinit.imp_right fun hmemory => ⟨hmemory.1, .inr hmemory.2⟩, rfl⟩
      | ok next =>
        rw [hrestore] at hinit
        exact ⟨hinit.1, hinit.2.1, hinit.2.2⟩

omit [DecidableEq κ] in
lemma Does.unchanged {digest : Bytes → κ} {next : Filter κ} {e : Error}
    (h : Does digest filter (.error e) next call) :
    e ≠ .panic ∧ Unchanged call.nowMs filter next := by
  cases call with
  | checkAndMark replayKey nowMs expiresAtMs room =>
    obtain ⟨hmax, h⟩ := h
    by_cases hbad : replayKey.length = 0 ∨ expiresAtMs ≤ nowMs
    · rw [if_pos hbad] at h
      obtain ⟨he, hnext⟩ := h
      cases he
      exact ⟨by decide, hmax, .inl hnext⟩
    rw [if_neg hbad] at h
    cases h with
    | replayed hknown hafter => exact ⟨by decide, hmax, .inr hafter⟩
    | outOfMemory hnew hdenied hafter => exact ⟨by decide, hmax, .inr hafter⟩
  | pruneExpired nowMs => cases h.1
  | restart maxEntries nowMs exportRoom rooms =>
    obtain ⟨he, rfl⟩ := h
    refine ⟨?_, rfl, .inl rfl⟩
    rcases he with ⟨rfl, -⟩ | ⟨rfl, -⟩ <;> decide

/-! ### What becomes of an entry -/

/-- An entry is dropped out of a full filter before it has expired, and no later than any that
is kept. -/
structure Evicts (event : Event (Filter κ) Call (Except Error Unit)) (entry : Entry κ) : Prop where
  unexpired : entry ∈ live event.input.nowMs event.pre.entries
  dropped : entry ∉ event.post.entries
  full : event.post.maxEntries ≤ (live event.input.nowMs event.pre.entries).length
  least : ∀ known ∈ live event.input.nowMs event.pre.entries,
    known ∈ event.post.entries → entry.expiresAtMs ≤ known.expiresAtMs

/-- **An unexpired entry stays, or it is evicted.** -/
theorem stays_or_evicted (h : filter.Sound) (digest : Bytes → κ) (hmem : entry ∈ filter.entries)
    (hlive : call.nowMs < entry.expiresAtMs) :
    entry ∈ (step digest filter call).2.entries ∨ Evicts (event (step digest) filter call) entry := by
  by_cases hkept : entry ∈ (step digest filter call).2.entries
  · exact .inl hkept
  have hin : entry ∈ live call.nowMs filter.entries := mem_live.mpr ⟨hmem, hlive⟩
  suffices hfull : (step digest filter call).2.maxEntries ≤
        (live call.nowMs filter.entries).length ∧
      ∀ known ∈ live call.nowMs filter.entries,
        known ∈ (step digest filter call).2.entries → entry.expiresAtMs ≤ known.expiresAtMs from
    .inr ⟨hin, hkept, hfull.1, hfull.2⟩
  have hdoes := (step_does h digest call).2
  generalize step digest filter call = out at hkept hdoes ⊢
  obtain ⟨result, next⟩ := out
  cases call with
  | checkAndMark replayKey nowMs expiresAtMs room =>
    obtain ⟨hmax, hdoes⟩ := hdoes
    by_cases hbad : replayKey.length = 0 ∨ expiresAtMs ≤ nowMs
    · rw [if_pos hbad] at hdoes
      rw [hdoes.2] at hkept
      exact absurd hmem hkept
    rw [if_neg hbad] at hdoes
    cases hdoes with
    | replayed hknown hafter => exact absurd (hafter.mem_iff.mpr hin) hkept
    | outOfMemory hnew hdenied hafter => exact absurd (hafter.mem_iff.mpr hin) hkept
    | appended hnew hroom hafter =>
      exact absurd (hafter.mem_iff.mpr (mem_cons_of_mem _ hin)) hkept
    | evicted hnew hfull hfirst hleast hafter =>
      refine ⟨Nat.le_of_eq (hmax.trans hfull.symm), fun known hknown _ => ?_⟩
      rcases mem_cons.mp (hfirst.mem_iff.mp hin) with heq | hrest
      · rw [heq]
        exact hleast known hknown
      · exact absurd (hafter.mem_iff.mpr (mem_cons_of_mem _ hrest)) hkept
  | pruneExpired nowMs => exact absurd (hdoes.2.2.mem_iff.mpr hin) hkept
  | restart maxEntries nowMs exportRoom rooms =>
    cases result with
    | error e =>
      have hsame : next = filter := hdoes.2
      exact absurd (hsame ▸ hmem) hkept
    | ok done =>
      obtain ⟨hmax, hkeeps⟩ := hdoes
      obtain ⟨dropped, hsplit, hfull, hlater⟩ := hkeeps.split
      have hdrop : entry ∈ dropped :=
        (mem_append.mp (hsplit.mem_iff.mp hin)).resolve_left hkept
      refine ⟨?_, fun known _ hknown => hlater entry hdrop known hknown⟩
      show next.maxEntries ≤ (live nowMs filter.entries).length
      rw [show next.maxEntries = maxEntries from hmax, hsplit.length_eq, length_append,
        hfull (ne_nil_of_mem hdrop)]
      exact Nat.le_add_right _ _

lemma stays_or_evicted_run (digest : Bytes → κ) (calls : List Call) (h : filter.Sound)
    (hmem : entry ∈ filter.entries) (hlive : ∀ call ∈ calls, call.nowMs < entry.expiresAtMs) :
    entry ∈ (exec (step digest) filter calls).entries ∨
      ∃ e ∈ trace (step digest) filter calls, Evicts e entry := by
  induction calls generalizing filter with
  | nil => exact .inl hmem
  | cons call rest ih =>
    rcases stays_or_evicted h digest hmem (hlive call mem_cons_self) with hkept | hevicted
    · rcases ih (step_does h digest call).1 hkept
        (fun next hnext => hlive next (mem_cons_of_mem _ hnext)) with hend | ⟨e, he, hev⟩
      · exact .inl hend
      · exact .inr ⟨e, mem_cons_of_mem _ he, hev⟩
    · exact .inr ⟨_, mem_cons_self, hevicted⟩

/-! ### Runs -/

lemma sound_run (digest : Bytes → κ) (h : filter.Sound) (calls : List Call) :
    (exec (step digest) filter calls).Sound :=
  exec_induction (step digest) Filter.Sound h (fun _ call hs => (step_does hs digest call).1) calls

lemma accepted_mem (h : filter.Sound) (digest : Bytes → κ)
    (hacc : (step digest filter (.checkAndMark replayKey nowMs expiresAtMs room)).1 = .ok ()) :
    replayKey.length ≠ 0 ∧ ({ key := digest replayKey, expiresAtMs := expiresAtMs } : Entry κ) ∈
      (step digest filter (.checkAndMark replayKey nowMs expiresAtMs room)).2.entries := by
  obtain ⟨-, -, hdoes⟩ := step_does h digest (.checkAndMark replayKey nowMs expiresAtMs room)
  rw [hacc] at hdoes
  by_cases hbad : replayKey.length = 0 ∨ expiresAtMs ≤ nowMs
  · rw [if_pos hbad] at hdoes
    cases hdoes.1
  rw [if_neg hbad] at hdoes
  refine ⟨fun hempty => hbad (.inl hempty), ?_⟩
  cases hdoes with
  | appended hnew hroom hafter => exact hafter.mem_iff.mpr mem_cons_self
  | evicted hnew hfull hfirst hleast hafter => exact hafter.mem_iff.mpr mem_cons_self

lemma rejected_of_mem (h : filter.Sound) (digest : Bytes → κ) {expiry : Nat}
    (hkey : replayKey.length ≠ 0)
    (hmem : ({ key := digest replayKey, expiresAtMs := expiry } : Entry κ) ∈ filter.entries)
    (hlive : nowMs < expiry) :
    (step digest filter (.checkAndMark replayKey nowMs expiresAtMs room)).1 =
      .error (if expiresAtMs ≤ nowMs then .invalidReplayKey else .replayedEarlyData) := by
  obtain ⟨-, -, hdoes⟩ := step_does h digest (.checkAndMark replayKey nowMs expiresAtMs room)
  have hin := mem_live.mpr ⟨hmem, hlive⟩
  by_cases hbad : expiresAtMs ≤ nowMs
  · rw [if_pos (.inr hbad)] at hdoes
    rw [if_pos hbad]
    exact hdoes.1
  rw [if_neg (not_or.mpr ⟨hkey, hbad⟩)] at hdoes
  rw [if_neg hbad]
  generalize step digest filter (.checkAndMark replayKey nowMs expiresAtMs room) = out at hdoes ⊢
  obtain ⟨result, next⟩ := out
  cases hdoes with
  | replayed hknown hafter => rfl
  | outOfMemory hnew hdenied hafter => exact (hnew _ hin rfl).elim
  | appended hnew hroom hafter => exact (hnew _ hin rfl).elim
  | evicted hnew hfull hfirst hleast hafter => exact (hnew _ hin rfl).elim

/-- **The replay filter over a run.**  Every state is sound, every call does what it should and
drops at most what has expired where it fails, and a key that was accepted is rejected until it
expires or a full filter has evicted it. -/
theorem replay_filter_sound (digest : Bytes → κ) {maxEntries : Nat} {filter : Filter κ}
    (hinit : init maxEntries = .ok filter) (calls : List Call)
    (htimes : (calls.map Call.nowMs).Pairwise (· ≤ ·)) :
    ((exec (step digest) filter calls).Sound ∧
      ((exec (step digest) filter calls).entries.map Entry.key).Nodup) ∧
    (∀ e ∈ trace (step digest) filter calls, Does digest e.pre e.output e.post e.input ∧
      ∀ error, e.output = .error error → error ≠ .panic ∧ Unchanged e.input.nowMs e.pre e.post) ∧
    ∀ (first between rest : List Call) (replayKey : Bytes)
      (nowMs expiresAtMs laterMs laterExpiresAtMs : Nat) (room laterRoom : Room),
      calls = first ++ .checkAndMark replayKey nowMs expiresAtMs room :: (between ++
        .checkAndMark replayKey laterMs laterExpiresAtMs laterRoom :: rest) →
      let asked := exec (step digest) filter first
      let marked := (step digest asked (.checkAndMark replayKey nowMs expiresAtMs room)).2
      (step digest asked (.checkAndMark replayKey nowMs expiresAtMs room)).1 = .ok () →
      laterMs < expiresAtMs → (step digest (exec (step digest) marked between)
        (.checkAndMark replayKey laterMs laterExpiresAtMs laterRoom)).1 =
          .error (if laterExpiresAtMs ≤ laterMs then .invalidReplayKey else .replayedEarlyData) ∨
      ∃ e ∈ trace (step digest) marked between,
        Evicts e { key := digest replayKey, expiresAtMs := expiresAtMs } := by
  have hsound := (Filter.Sound.init hinit).1
  refine ⟨⟨sound_run digest hsound calls, (sound_run digest hsound calls).keys_nodup⟩,
    fun e he => ?_, ?_⟩
  · obtain ⟨hpre, hevent⟩ := trace_pre (step digest) Filter.Sound hsound
      (fun _ call hs => (step_does hs digest call).1) calls e he
    have hdoes := (step_does hpre digest e.input).2
    rw [hevent]
    refine ⟨hdoes, fun error herror => ?_⟩
    rw [show (step digest e.pre e.input).1 = .error error from herror] at hdoes
    exact hdoes.unchanged
  intro first between rest replayKey nowMs expiresAtMs laterMs laterExpiresAtMs room laterRoom
    hcalls asked marked haccepted hlater
  have hasked : asked.Sound := sound_run digest hsound first
  have hmarked : marked.Sound :=
    (step_does hasked digest (.checkAndMark replayKey nowMs expiresAtMs room)).1
  obtain ⟨hkey, hmem⟩ := accepted_mem hasked digest haccepted
  have hbefore : ∀ call ∈ between, call.nowMs < expiresAtMs := by
    intro call hcall
    refine Nat.lt_of_le_of_lt ?_ hlater
    rw [hcalls, map_append, map_cons, map_append] at htimes
    have htail := (pairwise_append.mp htimes).2.1
    have hmiddle := (pairwise_append.mp (pairwise_cons.mp htail).2).2.2
    exact hmiddle _ (mem_map_of_mem hcall) laterMs mem_cons_self
  rcases stays_or_evicted_run digest between hmarked hmem hbefore with hkept | hevicted
  · exact .inl (rejected_of_mem (sound_run digest hmarked between) digest hkey hkept hlater)
  · exact .inr hevicted

/-- SHA-256 of the keys `a` and `b`. -/
def hashed (replayKey : Bytes) : Bytes :=
  if replayKey = [97] then
    [202, 151, 129, 18, 202, 27, 189, 202, 250, 194, 49, 179, 154, 35, 220, 77, 167, 134, 239, 248,
      20, 124, 78, 114, 185, 128, 119, 133, 175, 238, 72, 187]
  else
    [62, 35, 232, 22, 0, 57, 89, 74, 51, 137, 79, 101, 100, 225, 177, 52, 139, 189, 122, 0, 136,
      212, 44, 74, 203, 115, 238, 174, 213, 156, 0, 157]

def granted : Room := { index := true, entries := true }

/-- Two keys, and the first again behind a restart. -/
theorem replay_filter_sound_restart :
    let calls : List Call := [.checkAndMark [97] 1000 2000 granted,
      .checkAndMark [98] 1001 3000 granted, .restart 2 1002 true (fun _ => granted),
      .checkAndMark [97] 1003 4000 granted]
    (exec (step hashed) { maxEntries := 2 } calls).Sound ∧
      answers (step hashed) { maxEntries := 2 } calls =
        [.ok (), .ok (), .ok (), .error .replayedEarlyData] := by
  intro calls
  exact ⟨(@replay_filter_sound _ _ hashed 2 _ rfl calls (by decide)).1.1, by decide +kernel⟩

end Netz.Quic.ReplayFilter
