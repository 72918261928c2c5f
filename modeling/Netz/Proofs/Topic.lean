/-
A filter without wildcards matches one topic.

Splitting a value at its slashes loses nothing, so a list of levels that all have to be equal
is the value itself.
-/
import Netz.Mqtt.Topic

namespace Netz.Mqtt

open List

/-! ### Splitting -/

/-- Levels with slashes between them. -/
def joinLevels : List Bytes → Bytes
  | [] => []
  | [level] => level
  | level :: levels => level ++ slash :: joinLevels levels

lemma splitLevels_ne_nil (value : Bytes) : splitLevels value ≠ [] := by
  cases value with
  | nil => simp [splitLevels]
  | cons b rest =>
    unfold splitLevels
    split
    · simp
    split
    · simp
    · simp

lemma splitLevels_slash (rest : Bytes) : splitLevels (slash :: rest) = [] :: splitLevels rest := by
  rw [splitLevels, if_pos rfl]

lemma splitLevels_cons {b : UInt8} (h : b ≠ slash) (rest : Bytes) :
    ∃ level levels, splitLevels rest = level :: levels ∧
      splitLevels (b :: rest) = (b :: level) :: levels := by
  cases hrest : splitLevels rest with
  | nil => exact absurd hrest (splitLevels_ne_nil rest)
  | cons level levels => simp [splitLevels, h, hrest]

lemma joinLevels_cons {level : Bytes} {levels : List Bytes} (h : levels ≠ []) :
    joinLevels (level :: levels) = level ++ slash :: joinLevels levels := by
  cases levels with
  | nil => exact absurd rfl h
  | cons next rest => rfl

/-- **Joining undoes splitting.** -/
theorem joinLevels_splitLevels (value : Bytes) : joinLevels (splitLevels value) = value := by
  induction value with
  | nil => rfl
  | cons b rest ih =>
    by_cases hslash : b = slash
    · subst hslash
      rw [splitLevels_slash, joinLevels_cons (splitLevels_ne_nil rest), ih]
      rfl
    obtain ⟨level, levels, hrest, hsplit⟩ := splitLevels_cons hslash rest
    rw [hrest] at ih
    rw [hsplit]
    cases levels with
    | nil =>
      have hlevel : level = rest := ih
      rw [hlevel]
      rfl
    | cons next more => simp [joinLevels_cons (cons_ne_nil next more), ← ih]

lemma splitLevels_injective : Function.Injective splitLevels :=
  Function.LeftInverse.injective joinLevels_splitLevels

lemma mem_splitLevels {value level : Bytes} {b : UInt8} (hlevel : level ∈ splitLevels value)
    (hb : b ∈ level) : b ∈ value := by
  induction value generalizing level with
  | nil =>
    have hempty : level = [] := mem_singleton.mp hlevel
    rw [hempty] at hb
    cases hb
  | cons c rest ih =>
    by_cases hslash : c = slash
    · subst hslash
      rcases mem_cons.mp hlevel with rfl | hlater
      · cases hb
      · exact mem_cons_of_mem slash (ih hlater hb)
    obtain ⟨first, levels, hrest, hsplit⟩ := splitLevels_cons hslash rest
    rw [hsplit] at hlevel
    rcases mem_cons.mp hlevel with rfl | hlater
    · rcases mem_cons.mp hb with rfl | hlater
      · exact mem_cons_self
      · exact mem_cons_of_mem c (ih (by rw [hrest]; exact mem_cons_self) hlater)
    · exact mem_cons_of_mem c
        (ih (by rw [hrest]; exact mem_cons_of_mem first hlater) hb)

/-! ### Filters without wildcards -/

lemma levelsMatch_plain {filterLevels : List Bytes}
    (hhash : ∀ level ∈ filterLevels, level ≠ [hash])
    (hplus : ∀ level ∈ filterLevels, level ≠ [plus]) (topicLevels : List Bytes) :
    levelsMatch filterLevels topicLevels = true ↔ filterLevels = topicLevels := by
  induction filterLevels generalizing topicLevels with
  | nil => simp [levelsMatch]
  | cons level rest ih =>
    unfold levelsMatch
    rw [if_neg (hhash level mem_cons_self)]
    cases topicLevels with
    | nil => simp
    | cons topicLevel topicRest =>
      dsimp only
      rw [if_neg (hplus level mem_cons_self)]
      by_cases hsame : level = topicLevel
      · rw [if_pos hsame, ih (fun l hl => hhash l (mem_cons_of_mem level hl))
          (fun l hl => hplus l (mem_cons_of_mem level hl))]
        simp [hsame]
      · simp [hsame]

/-- A wildcard level comes from a wildcard. -/
theorem level_ne_of_plain {filter level : Bytes} (hplain : hasWildcards filter = false)
    (hlevel : level ∈ splitLevels filter) {b : UInt8} (hb : b = plus ∨ b = hash) : level ≠ [b] := by
  rintro rfl
  have hmem : b ∈ filter := mem_splitLevels hlevel mem_cons_self
  unfold hasWildcards at hplain
  rw [any_eq_false] at hplain
  have hb' := hplain b hmem
  rcases hb with rfl | rfl
  · simp at hb'
  · simp at hb'

/-- **A filter without wildcards matches the topic it spells.** -/
theorem topicMatchesFilter_plain {filter : Bytes} (hshare : sharePrefix.isPrefixOf filter = false)
    (hplain : hasWildcards filter = false) (topic : Bytes) :
    topicMatchesFilter topic filter = true ↔ topic = filter := by
  have hlevels : levelsMatch (splitLevels filter) (splitLevels topic) = true ↔ topic = filter := by
    rw [levelsMatch_plain (fun level hlevel => level_ne_of_plain hplain hlevel (.inr rfl))
      (fun level hlevel => level_ne_of_plain hplain hlevel (.inl rfl)),
      splitLevels_injective.eq_iff, eq_comm]
  unfold topicMatchesFilter
  rw [hshare]
  by_cases hdollar : (startsWithDollar topic && !startsWithDollar filter) = true
  · rw [if_neg (by simp)]
    dsimp only
    rw [if_pos hdollar]
    constructor
    · simp
    · rintro rfl
      simp at hdollar
  · simp [hdollar, hlevels]

end Netz.Mqtt
