/-
The indexed heap keeps its order and its positions.

The callbacks are only assumed to do what a heap needs of them (`Lawful`): the context has
something, `base`, that holds the keys and that no position is part of.  `Synced` then says
that positions and items are inverse to each other, and `Heaped` adds the order.
-/
import Netz.Lib.HeapOrder
import Netz.Mqtt.IndexedHeap

namespace Netz.Mqtt.IndexedMinHeap

open Lib Netz.Lib.Heap Option List

universe u

/-- What the callbacks of a heap do to the context. -/
structure Callbacks (Context Base : Type) (κ : Type u) where
  lessEntry : Context → Nat → Nat → Bool
  setPosition : Context → Nat → Option Nat → Context
  base : Context → Base
  live : Base → Nat → Prop
  key : Base → Nat → κ
  position : Context → Nat → Option Nat

variable {Context Base : Type} {κ : Type u}

structure Callbacks.Lawful [LT κ] (cb : Callbacks Context Base κ) : Prop where
  less_iff : ∀ c a b, cb.live (cb.base c) a → cb.live (cb.base c) b →
    (cb.lessEntry c a b = true ↔ cb.key (cb.base c) a < cb.key (cb.base c) b)
  base_set : ∀ c e p, cb.base (cb.setPosition c e p) = cb.base c
  position_set : ∀ c e p e', cb.live (cb.base c) e →
    cb.position (cb.setPosition c e p) e' = if e' = e then p else cb.position c e'

section

variable (cb : Callbacks Context Base κ)

def base (heap : IndexedMinHeap Context) : Base := cb.base heap.context

/-- The key at a position. -/
def keyAt (heap : IndexedMinHeap Context) (i : Nat) : κ := cb.key (heap.base cb) (heap.items.getD i 0)

/-- The items are live, and each is where its position says. -/
structure Synced (heap : IndexedMinHeap Context) : Prop where
  live : ∀ e ∈ heap.items, cb.live (heap.base cb) e
  position_iff : ∀ e, cb.live (heap.base cb) e →
    ∀ i, cb.position heap.context e = some i ↔ heap.items[i]? = some e

/-- In step, and in order. -/
structure Heaped [LinearOrder κ] (heap : IndexedMinHeap Context) : Prop extends Synced cb heap where
  ordered : Ordered (heap.keyAt cb) heap.items.length

/-- The heap holds the same entries, in places of its own choice. -/
structure Resorts (heap heap' : IndexedMinHeap Context) : Prop where
  base_eq : heap'.base cb = heap.base cb
  length_eq : heap'.items.length = heap.items.length
  mem_iff : ∀ e, e ∈ heap'.items ↔ e ∈ heap.items

lemma Resorts.refl (heap : IndexedMinHeap Context) : Resorts cb heap heap :=
  ⟨rfl, rfl, fun _ => Iff.rfl⟩

variable {cb} {heap heap' heap'' : IndexedMinHeap Context}

lemma Resorts.trans (h : Resorts cb heap heap') (h' : Resorts cb heap' heap'') :
    Resorts cb heap heap'' where
  base_eq := h'.base_eq.trans h.base_eq
  length_eq := h'.length_eq.trans h.length_eq
  mem_iff e := (h'.mem_iff e).trans (h.mem_iff e)

variable {i j e : Nat} {items : List Nat}

lemma Synced.index_unique (h : Synced cb heap) (hi : heap.items[i]? = some e)
    (hj : heap.items[j]? = some e) : i = j := by
  have hlive := h.live e (mem_of_getElem? hi)
  have hpi := (h.position_iff e hlive i).mpr hi
  rw [(h.position_iff e hlive j).mpr hj] at hpi
  exact (some.inj hpi).symm

lemma Synced.nodup (h : Synced cb heap) : heap.items.Nodup := by
  rw [nodup_iff_getElem?_ne_getElem?]
  intro i j hij hj heq
  have hj' : heap.items[j]? = some heap.items[j] := getElem?_eq_getElem hj
  have := h.index_unique (heq.trans hj') hj'
  omega

lemma Synced.position_none (h : Synced cb heap) (hlive : cb.live (heap.base cb) e)
    (he : e ∉ heap.items) : cb.position heap.context e = none := by
  cases hp : cb.position heap.context e with
  | none => rfl
  | some i => exact absurd (mem_of_getElem? ((h.position_iff e hlive i).mp hp)) he

/-- The last item has taken the place of the one removed. -/
structure Filled (cb : Callbacks Context Base κ) (heap start : IndexedMinHeap Context)
    (i removed last : Nat) : Prop where
  get : heap.items[i]? = some removed
  atEnd : heap.items[heap.items.length - 1]? = some last
  length : start.items.length + 1 = heap.items.length
  inside : i < start.items.length
  item : ∀ j, j < start.items.length →
    start.items[j]? = if j = i then some last else heap.items[j]?
  base : start.base cb = heap.base cb
  position : ∀ e, cb.position start.context e =
    if e = last then some i else if e = removed then none else cb.position heap.context e

section

variable {start : IndexedMinHeap Context} {removed last : Nat}

lemma Filled.mem_iff (hf : Filled cb heap start i removed last) (h : Synced cb heap) (e : Nat) :
    e ∈ start.items ↔ e ∈ heap.items ∧ e ≠ removed := by
  have hin := hf.inside
  have hlen := hf.length
  rw [mem_iff_getElem?, mem_iff_getElem?]
  constructor
  · rintro ⟨j, hj⟩
    obtain ⟨hjl, -⟩ := List.getElem_of_getElem? hj
    rw [hf.item j hjl] at hj
    split at hj
    · cases hj
      refine ⟨⟨_, hf.atEnd⟩, ?_⟩
      rintro rfl
      have := h.index_unique hf.atEnd hf.get
      omega
    rename_i hji
    refine ⟨⟨j, hj⟩, ?_⟩
    rintro rfl
    exact hji (h.index_unique hj hf.get)
  rintro ⟨⟨j, hj⟩, hne⟩
  obtain ⟨hjl, -⟩ := List.getElem_of_getElem? hj
  by_cases hjlast : j = heap.items.length - 1
  · refine ⟨i, ?_⟩
    rw [hf.item i hin, if_pos rfl, ← hf.atEnd, ← hjlast]
    exact hj
  refine ⟨j, ?_⟩
  rw [hf.item j (by omega), if_neg, hj]
  rintro rfl
  exact hne (some.inj (hj.symm.trans hf.get))

lemma Filled.synced (hf : Filled cb heap start i removed last) (h : Synced cb heap) :
    Synced cb start := by
  have hin := hf.inside
  have hlen := hf.length
  constructor
  · intro e he
    rw [hf.base]
    exact h.live e ((hf.mem_iff h e).mp he).1
  intro e hlive j
  rw [hf.base] at hlive
  rw [hf.position]
  by_cases hel : e = last
  · rw [if_pos hel, hel, some.injEq]
    constructor
    · rintro rfl
      rw [hf.item _ hin, if_pos rfl]
    intro hj
    obtain ⟨hjl, -⟩ := List.getElem_of_getElem? hj
    rw [hf.item j hjl] at hj
    split at hj
    · omega
    · have := h.index_unique hj hf.atEnd
      omega
  rw [if_neg hel]
  by_cases her : e = removed
  · rw [if_pos her, her]
    refine ⟨fun hn => (by cases hn), fun hj => ?_⟩
    exact absurd rfl ((hf.mem_iff h removed).mp (mem_of_getElem? hj)).2
  rw [if_neg her, h.position_iff e hlive j]
  by_cases hjl : j < start.items.length
  · rw [hf.item j hjl]
    by_cases hji : j = i
    · rw [if_pos hji, hji, hf.get]
      exact ⟨fun hs => absurd (some.inj hs).symm her,
        fun hs => absurd (some.inj hs).symm hel⟩
    · rw [if_neg hji]
  rw [getElem?_eq_none (by omega : start.items.length ≤ j)]
  refine ⟨fun hs => ?_, fun hn => (by cases hn)⟩
  obtain ⟨hjh, -⟩ := List.getElem_of_getElem? hs
  have hjlast : j = heap.items.length - 1 := by omega
  rw [hjlast, hf.atEnd] at hs
  exact absurd (some.inj hs).symm hel

end

/-! ### Exchanging two items -/

lemma getElem?_exchange {a b : Nat} (ha : a < items.length) (hb : b < items.length) (j : Nat) :
    ((items.set a (items.getD b 0)).set b (items.getD a 0))[j]? = items[Equiv.swap a b j]? := by
  have hga : items[a]? = some (items.getD a 0) := by
    rw [getD_eq_getElem?_getD, getElem?_eq_getElem ha]
    rfl
  have hgb : items[b]? = some (items.getD b 0) := by
    rw [getD_eq_getElem?_getD, getElem?_eq_getElem hb]
    rfl
  rw [getElem?_set, getElem?_set, length_set]
  by_cases hjb : j = b
  · rw [if_pos hjb.symm, if_pos hb, hjb, Equiv.swap_apply_right, hga]
  rw [if_neg (Ne.symm hjb)]
  by_cases hja : j = a
  · rw [if_pos hja.symm, if_pos ha, hja, Equiv.swap_apply_left, hgb]
  · rw [if_neg (Ne.symm hja), Equiv.swap_apply_of_ne_of_ne hja hjb]

lemma keyAt_congr {heap heap' : IndexedMinHeap Context} (hbase : heap'.base cb = heap.base cb)
    (hitem : heap'.items[i]? = heap.items[i]?) : heap'.keyAt cb i = heap.keyAt cb i := by
  simp [hbase, hitem, keyAt]

lemma getElem?_dropLast_of_lt (h : j < items.length - 1) : items.dropLast[j]? = items[j]? := by
  rw [getElem?_dropLast, if_pos h]

variable [LinearOrder κ]

lemma root_le (h : Heaped cb heap) {root e : Nat} (hroot : heap.items[0]? = some root)
    (he : e ∈ heap.items) : cb.key (heap.base cb) root ≤ cb.key (heap.base cb) e := by
  obtain ⟨i, hi⟩ := mem_iff_getElem?.mp he
  obtain ⟨hlt, -⟩ := List.getElem_of_getElem? hi
  have hle := h.ordered.root_le i hlt
  unfold keyAt at hle
  rw [getD_eq_getElem?_getD, getD_eq_getElem?_getD, hroot, hi] at hle
  exact hle

variable (law : cb.Lawful)

include law

lemma swap_base (heap : IndexedMinHeap Context) (a b : Nat) :
    (heap.swap cb.setPosition a b).base cb = heap.base cb := by simp [law.base_set, base, swap]

variable {a b e index i : Nat}

lemma swap_resorts (ha : a < heap.items.length) (hb : b < heap.items.length) :
    Resorts cb heap (heap.swap cb.setPosition a b) := by
  refine ⟨swap_base law heap a b, ?_, ?_⟩
  · show ((heap.items.set a _).set b _).length = _
    rw [length_set, length_set]
  intro e
  show e ∈ (heap.items.set a _).set b _ ↔ _
  rw [mem_iff_getElem?, mem_iff_getElem?]
  constructor
  · rintro ⟨j, hj⟩
    rw [getElem?_exchange ha hb] at hj
    exact ⟨_, hj⟩
  rintro ⟨j, hj⟩
  refine ⟨Equiv.swap a b j, ?_⟩
  rw [getElem?_exchange ha hb, Equiv.swap_apply_self]
  exact hj

/-- Both entries are told their new place, and the others are where they were. -/
theorem Synced.position_swap (h : Synced cb heap) (ha : a < heap.items.length)
    (hb : b < heap.items.length) (hlive : cb.live (heap.base cb) e) :
    cb.position (heap.swap cb.setPosition a b).context e =
      (cb.position heap.context e).map (Equiv.swap a b) := by
  have hga : heap.items[a]? = some heap.items[a] := getElem?_eq_getElem ha
  have hgb : heap.items[b]? = some heap.items[b] := getElem?_eq_getElem hb
  have hliveA := h.live _ (mem_of_getElem? hga)
  have hliveB := h.live _ (mem_of_getElem? hgb)
  have hitem : ∀ j, ((heap.items.set a (heap.items.getD b 0)).set b (heap.items.getD a 0)).getD j 0 =
      heap.items[Equiv.swap a b j]?.getD 0 := by
    intro j
    rw [getD_eq_getElem?_getD, getElem?_exchange ha hb]
  show cb.position (cb.setPosition (cb.setPosition heap.context _ _) _ _) e = _
  rw [hitem, hitem, Equiv.swap_apply_left, Equiv.swap_apply_right, hga, hgb]
  dsimp only [getD_some]
  rw [law.position_set _ _ _ _ (by rw [law.base_set]; exact hliveA),
    law.position_set _ _ _ _ hliveB]
  by_cases hea : e = heap.items[a]
  · rw [if_pos hea, (h.position_iff e hlive a).mpr (hea ▸ hga), map_some,
      Equiv.swap_apply_left]
  rw [if_neg hea]
  by_cases heb : e = heap.items[b]
  · rw [if_pos heb, (h.position_iff e hlive b).mpr (heb ▸ hgb), map_some,
      Equiv.swap_apply_right]
  rw [if_neg heb]
  cases hp : cb.position heap.context e with
  | none => rfl
  | some p =>
    have hget := (h.position_iff e hlive p).mp hp
    have hpa : p ≠ a := by
      rintro rfl
      exact hea (some.inj (hget.symm.trans hga))
    have hpb : p ≠ b := by
      rintro rfl
      exact heb (some.inj (hget.symm.trans hgb))
    rw [map_some, Equiv.swap_apply_of_ne_of_ne hpa hpb]

lemma Synced.swap (h : Synced cb heap) (ha : a < heap.items.length) (hb : b < heap.items.length) :
    Synced cb (heap.swap cb.setPosition a b) := by
  have hresort := swap_resorts law ha hb
  constructor
  · intro e he
    rw [hresort.base_eq]
    exact h.live e ((hresort.mem_iff e).mp he)
  intro e hlive i
  rw [hresort.base_eq] at hlive
  show _ ↔ ((heap.items.set a (heap.items.getD b 0)).set b (heap.items.getD a 0))[i]? = some e
  rw [h.position_swap law ha hb hlive, getElem?_exchange ha hb, ← h.position_iff e hlive,
    map_eq_some_iff]
  constructor
  · rintro ⟨p, hp, rfl⟩
    rw [Equiv.swap_apply_self]
    exact hp
  · intro hp
    exact ⟨_, hp, Equiv.swap_apply_self a b i⟩

lemma keyAt_swap (ha : a < heap.items.length) (hb : b < heap.items.length) :
    (heap.swap cb.setPosition a b).keyAt cb = swapAt (heap.keyAt cb) a b := by
  funext i
  unfold Heap.swapAt
  dsimp only [keyAt]
  rw [swap_base law]
  show cb.key _ (((heap.items.set a _).set b _).getD i 0) = _
  rw [getD_eq_getElem?_getD, getElem?_exchange ha hb, getD_eq_getElem?_getD]

lemma less_iff (h : Synced cb heap) (ha : a < heap.items.length) (hb : b < heap.items.length) :
    heap.less cb.lessEntry a b = true ↔ heap.keyAt cb a < heap.keyAt cb b := by
  have hlive : ∀ i, i < heap.items.length → cb.live (heap.base cb) (heap.items.getD i 0) := by
    intro i hi
    rw [getD_eq_getElem?_getD, getElem?_eq_getElem hi]
    exact h.live _ (getElem_mem hi)
  exact law.less_iff _ _ _ (hlive a ha) (hlive b hb)

/-! ### The loops -/

/-- A heap that has come out right, from another one. -/
def Settles (cb : Callbacks Context Base κ) (heap heap' : IndexedMinHeap Context) : Prop :=
  Heaped cb heap' ∧ Resorts cb heap heap'

lemma Settles.swap {heap heap' : IndexedMinHeap Context} (ha : a < heap.items.length)
    (hb : b < heap.items.length) (h : Settles cb (heap.swap cb.setPosition a b) heap') :
    Settles cb heap heap' :=
  ⟨h.1, (swap_resorts law ha hb).trans h.2⟩

lemma siftUp_settles :
    ∀ (fuel index : Nat) (heap : IndexedMinHeap Context), index ≤ fuel →
      index < heap.items.length → Synced cb heap → UpOrder (heap.keyAt cb) heap.items.length index →
        Settles cb heap (siftUp cb.lessEntry cb.setPosition fuel index heap) := by
  intro fuel
  induction fuel with
  | zero =>
    intro index heap hfuel _ hsync horder
    exact ⟨⟨hsync, horder.finish (fun h => absurd h (by omega))⟩, Resorts.refl cb heap⟩
  | succ fuel ih =>
    intro index heap hfuel hlt hsync horder
    unfold siftUp
    by_cases hzero : index = 0
    · rw [if_pos hzero]
      exact ⟨⟨hsync, horder.finish (fun h => absurd hzero (by omega))⟩, Resorts.refl cb heap⟩
    rw [if_neg hzero]
    have hpos : 0 < index := Nat.pos_of_ne_zero hzero
    have hp : parent index < index := parent_lt hpos
    have hless := less_iff law hsync hlt (hp.trans hlt)
    by_cases hl : heap.less cb.lessEntry index (parent index) = true
    · have hstep : Settles cb (heap.swap cb.setPosition index (parent index))
          (siftUp cb.lessEntry cb.setPosition fuel (parent index)
            (heap.swap cb.setPosition index (parent index))) := by
        have hlen := (swap_resorts law hlt (hp.trans hlt)).length_eq
        refine ih _ _ (by omega) (by rw [hlen]; exact hp.trans hlt)
          (hsync.swap law hlt (hp.trans hlt)) ?_
        rw [keyAt_swap law hlt (hp.trans hlt), hlen]
        exact horder.move hpos hlt (hless.mp hl)
      show Settles cb heap (if !heap.less cb.lessEntry index (parent index) then _ else _)
      rw [if_neg (by simp [hl])]
      exact hstep.swap law hlt (hp.trans hlt)
    show Settles cb heap (if !heap.less cb.lessEntry index (parent index) then _ else _)
    rw [if_pos (by simp [hl])]
    exact ⟨⟨hsync, horder.finish (fun _ => not_lt.mp (mt hless.mpr hl))⟩, Resorts.refl cb heap⟩

/-- The chosen child is one, and no child precedes it. -/
theorem smallestChild_spec (h : Synced cb heap) (hleft : index * 2 + 1 < heap.items.length) :
    parent (heap.smallestChild cb.lessEntry index) = index ∧
      index < heap.smallestChild cb.lessEntry index ∧
      heap.smallestChild cb.lessEntry index < heap.items.length ∧
      ∀ j, 0 < j → j < heap.items.length → parent j = index →
        heap.keyAt cb (heap.smallestChild cb.lessEntry index) ≤ heap.keyAt cb j := by
  have hchild : ∀ j, 0 < j → parent j = index → j = index * 2 + 1 ∨ j = index * 2 + 2 := by
    intro j hj hp
    have := (parent_eq_iff hj).mp hp
    omega
  unfold smallestChild
  by_cases hright : index * 2 + 1 + 1 < heap.items.length
  · have hless := less_iff law h hright hleft
    by_cases hl : heap.less cb.lessEntry (index * 2 + 1 + 1) (index * 2 + 1) = true
    · rw [if_pos (by simp [hright, hl])]
      refine ⟨by unfold parent; omega, by omega, hright, ?_⟩
      intro j hj hjn hp
      rcases hchild j hj hp with rfl | rfl
      · exact (hless.mp hl).le
      · exact le_refl _
    rw [if_neg (by simp [hl])]
    refine ⟨by unfold parent; omega, by omega, hleft, ?_⟩
    intro j hj hjn hp
    rcases hchild j hj hp with rfl | rfl
    · exact le_refl _
    · exact not_lt.mp (mt hless.mpr hl)
  rw [if_neg (by simp [hright])]
  refine ⟨by unfold parent; omega, by omega, hleft, ?_⟩
  intro j hj hjn hp
  rcases hchild j hj hp with rfl | rfl
  · exact le_refl _
  · omega

lemma siftDown_settles :
    ∀ (fuel index : Nat) (heap : IndexedMinHeap Context), heap.items.length ≤ fuel + index →
      Synced cb heap → DownOrder (heap.keyAt cb) heap.items.length index →
        Settles cb heap (siftDown cb.lessEntry cb.setPosition fuel index heap) := by
  intro fuel
  induction fuel with
  | zero =>
    intro index heap hfuel hsync horder
    refine ⟨⟨hsync, horder.finish ?_⟩, Resorts.refl cb heap⟩
    intro j hj hjn hp
    have := parent_lt hj
    omega
  | succ fuel ih =>
    intro index heap hfuel hsync horder
    unfold siftDown
    by_cases hleft : index * 2 + 1 ≥ heap.items.length
    · rw [if_pos hleft]
      refine ⟨⟨hsync, horder.finish ?_⟩, Resorts.refl cb heap⟩
      intro j hj hjn hp
      have := (parent_eq_iff hj).mp hp
      omega
    rw [if_neg hleft]
    obtain ⟨hparent, hgt, hlt, hmin⟩ := smallestChild_spec law hsync (not_le.mp hleft)
    generalize heap.smallestChild cb.lessEntry index = c at hparent hgt hlt hmin
    have hless := less_iff law hsync hlt (hgt.trans hlt)
    by_cases hl : heap.less cb.lessEntry c index = true
    · rw [if_neg (by simp [hl])]
      have hlen := (swap_resorts law (hgt.trans hlt) hlt).length_eq
      refine (ih _ _ (by rw [hlen]; omega) (hsync.swap law (hgt.trans hlt) hlt) ?_).swap law
        (hgt.trans hlt) hlt
      rw [keyAt_swap law (hgt.trans hlt) hlt, hlen]
      exact horder.move (by omega) hlt hparent hmin (hless.mp hl)
    rw [if_pos (by simp [hl])]
    refine ⟨⟨hsync, horder.finish ?_⟩, Resorts.refl cb heap⟩
    intro j hj hjn hp
    exact (not_lt.mp (mt hless.mpr hl)).trans (hmin j hj hjn hp)

lemma fix_settles (hsync : Synced cb heap) (hlt : index < heap.items.length)
    (horder : HoleOrder (heap.keyAt cb) heap.items.length index) :
    Settles cb heap (fix cb.lessEntry cb.setPosition heap index) := by
  unfold fix
  by_cases hzero : index = 0
  · rw [if_neg (fun h => h.1 hzero)]
    exact siftDown_settles law _ _ _ (by omega) hsync
      (horder.down (fun h => absurd hzero (by omega)))
  have hpos : 0 < index := Nat.pos_of_ne_zero hzero
  have hless := less_iff law hsync hlt ((parent_lt hpos).trans hlt)
  by_cases hl : heap.less cb.lessEntry index ((index - 1) / 2) = true
  · rw [if_pos ⟨hzero, hl⟩]
    exact siftUp_settles law _ _ _ le_rfl hlt hsync (horder.up hpos (hless.mp hl))
  rw [if_neg (fun h => hl h.2)]
  exact siftDown_settles law _ _ _ (by omega) hsync
    (horder.down (fun _ => not_lt.mp (mt hless.mpr hl)))

/-! ### Adding and removing -/

lemma append_settles (h : Heaped cb heap) (hlive : cb.live (heap.base cb) e)
    (hnew : e ∉ heap.items) :
    Heaped cb (heap.append cb.lessEntry cb.setPosition e) ∧
      (heap.append cb.lessEntry cb.setPosition e).base cb = heap.base cb ∧
      (heap.append cb.lessEntry cb.setPosition e).items.length = heap.items.length + 1 ∧
      ∀ e', e' ∈ (heap.append cb.lessEntry cb.setPosition e).items ↔ e' = e ∨ e' ∈ heap.items := by
  obtain ⟨start, hstart⟩ : ∃ start : IndexedMinHeap Context, start =
      { context := cb.setPosition heap.context e (some heap.items.length),
        items := heap.items ++ [e] } := ⟨_, rfl⟩
  have hbase : start.base cb = heap.base cb := by
    rw [hstart]
    exact law.base_set _ _ _
  have hlen : start.items.length = heap.items.length + 1 := by
    rw [hstart]
    simp
  have hold : ∀ i, i < heap.items.length → start.items[i]? = heap.items[i]? := by
    intro i hi
    rw [hstart]
    exact getElem?_append_left hi
  have hlast : start.items[heap.items.length]? = some e := by
    rw [hstart]
    simp
  have hsync : Synced cb start := by
    constructor
    · intro e' he'
      rw [hbase]
      rw [hstart] at he'
      rcases mem_append.mp he' with he' | he'
      · exact h.live e' he'
      · simp [mem_singleton.mp he', hlive]
    intro e' hlive' i
    rw [hbase] at hlive'
    have hpos : cb.position start.context e' =
        if e' = e then some heap.items.length else cb.position heap.context e' := by
      rw [hstart]
      exact law.position_set _ _ _ _ hlive
    rw [hpos]
    by_cases he : e' = e
    · rw [if_pos he, he, some.injEq]
      refine ⟨fun hi => hi ▸ hlast, fun hi => ?_⟩
      by_contra hne
      by_cases hlt : i < heap.items.length
      · rw [hold i hlt] at hi
        exact hnew (mem_of_getElem? hi)
      · rw [getElem?_eq_none (by omega)] at hi
        cases hi
    rw [if_neg he, h.position_iff e' hlive' i]
    by_cases hlt : i < heap.items.length
    · rw [hold i hlt]
    rw [getElem?_eq_none (by omega)]
    refine ⟨fun hi => (by cases hi), fun hi => ?_⟩
    by_cases hi' : i = heap.items.length
    · rw [hi', hlast] at hi
      exact absurd (some.inj hi).symm he
    · rw [getElem?_eq_none (by omega)] at hi
      cases hi
  have horder : UpOrder (start.keyAt cb) start.items.length heap.items.length := by
    have hkeys : Ordered (start.keyAt cb) heap.items.length := by
      intro i hi hin
      rw [keyAt_congr hbase (hold i hin), keyAt_congr hbase (hold _ ((parent_lt hi).trans hin))]
      exact h.ordered i hi hin
    rw [hlen]
    exact hkeys.append
  have hsettle := siftUp_settles law heap.items.length heap.items.length start le_rfl
    (by omega) hsync horder
  have happend : heap.append cb.lessEntry cb.setPosition e =
      siftUp cb.lessEntry cb.setPosition heap.items.length heap.items.length start := by
    rw [hstart]
    rfl
  rw [happend]
  refine ⟨hsettle.1, hsettle.2.base_eq.trans hbase, hsettle.2.length_eq.trans hlen, ?_⟩
  intro e'
  rw [hsettle.2.mem_iff, hstart]
  simp [or_comm]

/-- What is left of a heap when the entry at `i` is taken out. -/
structure Removes (cb : Callbacks Context Base κ) (heap : IndexedMinHeap Context) (i : Nat)
    (result : Nat × IndexedMinHeap Context) : Prop where
  entry : heap.items[i]? = some result.1
  heaped : Heaped cb result.2
  base_eq : result.2.base cb = heap.base cb
  length_eq : result.2.items.length + 1 = heap.items.length
  mem_iff : ∀ e, e ∈ result.2.items ↔ e ∈ heap.items ∧ e ≠ result.1

lemma remove_last (h : Heaped cb heap) (hi : i + 1 = heap.items.length) :
    Removes cb heap i (heap.remove cb.lessEntry cb.setPosition i) := by
  have hlt : i < heap.items.length := by omega
  have hget : heap.items[i]? = some (heap.items.getD i 0) := by
    rw [getD_eq_getElem?_getD, getElem?_eq_getElem hlt]
    rfl
  have hliveI := h.live _ (mem_of_getElem? hget)
  have hremove : heap.remove cb.lessEntry cb.setPosition i = (heap.items.getD i 0,
      { context := cb.setPosition heap.context (heap.items.getD i 0) none,
        items := heap.items.dropLast }) := by
    unfold remove
    rw [if_pos (by rw [length_dropLast]; omega)]
  have hother : ∀ j e : Nat, e ≠ heap.items.getD i 0 →
      (heap.items.dropLast[j]? = some e ↔ heap.items[j]? = some e) := by
    intro j e he
    by_cases hj : j < heap.items.length - 1
    · rw [getElem?_dropLast_of_lt hj]
    rw [getElem?_eq_none (by rw [length_dropLast]; omega)]
    refine ⟨fun hn => (by cases hn), fun hs => ?_⟩
    obtain ⟨hjl, -⟩ := List.getElem_of_getElem? hs
    have hji : j = i := by omega
    rw [hji, hget] at hs
    exact absurd (some.inj hs).symm he
  have hgone : heap.items.getD i 0 ∉ heap.items.dropLast := by
    intro hmem
    obtain ⟨j, hj⟩ := mem_iff_getElem?.mp hmem
    obtain ⟨hjl, -⟩ := List.getElem_of_getElem? hj
    rw [length_dropLast] at hjl
    rw [getElem?_dropLast_of_lt hjl] at hj
    have := h.index_unique hj hget
    omega
  rw [hremove]
  refine ⟨hget, ⟨⟨?_, ?_⟩, ?_⟩, law.base_set _ _ _, ?_, ?_⟩
  · intro e he
    show cb.live (cb.base (cb.setPosition _ _ _)) e
    rw [law.base_set]
    exact h.live e (mem_of_mem_dropLast he)
  · intro e hlive j
    change cb.live (cb.base (cb.setPosition _ _ _)) e at hlive
    rw [law.base_set] at hlive
    rw [law.position_set _ _ _ _ hliveI]
    by_cases he : e = heap.items.getD i 0
    · rw [if_pos he, he]
      exact ⟨fun hn => (by cases hn), fun hs => absurd (mem_of_getElem? hs) hgone⟩
    · rw [if_neg he, h.position_iff e hlive j, hother j e he]
  · intro j hj hjn
    rw [length_dropLast] at hjn
    have := parent_lt hj
    have hkey : ∀ m, m < heap.items.length - 1 →
        keyAt cb ⟨cb.setPosition heap.context (heap.items.getD i 0) none, heap.items.dropLast⟩ m =
          heap.keyAt cb m := by
      intro m hm
      refine keyAt_congr ?_ (getElem?_dropLast_of_lt hm)
      exact law.base_set _ _ _
    rw [hkey j hjn, hkey _ (by omega)]
    exact h.ordered j hj (by omega)
  · show heap.items.dropLast.length + 1 = _
    rw [length_dropLast]
    omega
  intro e
  constructor
  · intro he
    refine ⟨mem_of_mem_dropLast he, ?_⟩
    rintro rfl
    exact hgone he
  rintro ⟨he, hne⟩
  obtain ⟨j, hj⟩ := mem_iff_getElem?.mp he
  exact mem_of_getElem? ((hother j e hne).mpr hj)

lemma remove_middle (h : Heaped cb heap) (hi : i + 1 < heap.items.length) :
    Removes cb heap i (heap.remove cb.lessEntry cb.setPosition i) := by
  obtain ⟨last, hlast⟩ : ∃ last, heap.items[heap.items.length - 1]? = some last :=
    ⟨_, getElem?_eq_getElem (by omega)⟩
  have hlastD : heap.items.getLastD 0 = last := by
    rw [getLastD_eq_getLast?, getLast?_eq_getElem?, hlast]
    rfl
  have hget : heap.items[i]? = some (heap.items.getD i 0) := by
    rw [getD_eq_getElem?_getD, getElem?_eq_getElem (by omega)]
    rfl
  obtain ⟨removed, hremoved⟩ : ∃ removed, removed = heap.items.getD i 0 := ⟨_, rfl⟩
  rw [← hremoved] at hget
  have hliveI := h.live _ (mem_of_getElem? hget)
  have hliveL := h.live _ (mem_of_getElem? hlast)
  obtain ⟨start, hstart⟩ : ∃ start : IndexedMinHeap Context, start =
      { context := cb.setPosition (cb.setPosition heap.context removed none) last (some i),
        items := heap.items.dropLast.set i last } := ⟨_, rfl⟩
  have hremove : heap.remove cb.lessEntry cb.setPosition i =
      (removed, start.fix cb.lessEntry cb.setPosition i) := by
    unfold remove
    rw [if_neg (by rw [length_dropLast]; omega), hstart, hlastD, hremoved]
  have hlen : start.items.length + 1 = heap.items.length := by
    rw [hstart, length_set, length_dropLast]
    omega
  have hf : Filled cb heap start i removed last := by
    refine ⟨hget, hlast, hlen, by omega, fun j hj => ?_, ?_, fun e => ?_⟩ <;> rw [hstart]
    · rw [getElem?_set, length_dropLast]
      by_cases hji : j = i
      · rw [if_pos hji.symm, if_pos hji, if_pos (by omega)]
      · rw [if_neg (Ne.symm hji), if_neg hji, getElem?_dropLast_of_lt (by omega)]
    · show cb.base (cb.setPosition _ _ _) = _
      rw [law.base_set, law.base_set]
      rfl
    · rw [law.position_set _ _ _ _ (by rw [law.base_set]; exact hliveL),
        law.position_set _ _ _ _ hliveI]
  have horder : HoleOrder (start.keyAt cb) start.items.length i := by
    have hshort : Ordered (heap.keyAt cb) start.items.length := h.ordered.mono (by omega)
    refine hshort.hole (fun j hj hji => ?_) (by omega)
    refine keyAt_congr hf.base ?_
    rw [hf.item j hj, if_neg hji]
  have hsettle := fix_settles law (hf.synced h.toSynced) hf.inside horder
  rw [hremove]
  refine ⟨hget, hsettle.1, hsettle.2.base_eq.trans hf.base, ?_, ?_⟩
  · simp [hsettle.2.length_eq, hlen]
  · simp [hsettle.2.mem_iff, hf.mem_iff h.toSynced]

/-- **An entry is removed from anywhere, and the rest is a heap.** -/
theorem remove_removes (h : Heaped cb heap) (hi : i < heap.items.length) :
    Removes cb heap i (heap.remove cb.lessEntry cb.setPosition i) := by
  by_cases hlast : i + 1 = heap.items.length
  · exact remove_last law h hlast
  · exact remove_middle law h (by omega)

end

end Netz.Mqtt.IndexedMinHeap
