/-
Readers: programs that take symbols off the front of their input, or fail.

A reader is followed in two directions.  `Reads r word a` says that `r` takes exactly
`word`, whatever comes after it, and yields `a`; a decoder is shown to undo an encoder by
composing such facts along its binds.  `Yields` and `Avoids` say what holds on *every*
input: what the reader yields while it drops symbols from the front, and that it never
fails in one particular way.
-/
import Mathlib.Data.List.Basic
import Mathlib.Data.Vector.Defs
import Netz.Lib.Guard

namespace Netz.Lib

open List hiding Vector

lemma bind_eq_ok {ε α β : Type} {x : Except ε α} {f : α → Except ε β} {b : β}
    (h : (x >>= f) = .ok b) : ∃ a, x = .ok a ∧ f a = .ok b := by
  cases x with
  | error e => simp [bind, Except.bind] at h
  | ok a => exact ⟨a, rfl, h⟩

/-- A reader over symbols `β` that fails with an `ε`. -/
abbrev Reader (ε β : Type) := StateT (List β) (Except ε)

namespace Reader

variable {ε β α γ : Type}

/-! ### Primitive readers -/

/-- The next symbol, which stays in the input. -/
def peek (e : ε) : Reader ε β β
  | [] => .error e
  | b :: rest => .ok (b, b :: rest)

/-- The next symbol. -/
def next (e : ε) : Reader ε β β
  | [] => .error e
  | b :: rest => .ok (b, rest)

/-- The next `n` symbols. -/
def take (e : ε) (n : Nat) : Reader ε β (List β) := fun input =>
  if n ≤ input.length then .ok (input.take n, input.drop n) else .error e

/-- The next `n` symbols, as a vector. -/
def takeVector (e : ε) (n : Nat) : Reader ε β (Vector β n) := fun input =>
  if h : n ≤ input.length then .ok (⟨(input.take n).toArray, by simp [h]⟩, input.drop n)
  else .error e

/-- Everything that is left. -/
def takeRest : Reader ε β (List β) := fun input => .ok (input, [])

/-- How much is left. -/
def remaining : Reader ε β Nat := fun input => .ok (input.length, input)

/-- A check between two readings. -/
def check : Except ε α → Reader ε β α
  | .ok a => pure a
  | .error e => throw e

/-- `n` readings in a row. -/
def times (r : Reader ε β α) : Nat → Reader ε β (List α)
  | 0 => pure []
  | n + 1 => do
    let a ← r
    let as ← times r n
    return a :: as

/-! ### Running a reader -/

lemma pure_run (a : α) (input : List β) : (pure a : Reader ε β α) input = .ok (a, input) := rfl

lemma check_ok {result : Except ε α} {a : α} (h : result = .ok a) :
    (check result : Reader ε β α) = pure a := by
  rw [h]
  rfl

lemma bind_run (r : Reader ε β α) (f : α → Reader ε β γ) (input : List β) :
    (r >>= f) input = (match r input with
      | .ok (a, rest) => f a rest
      | .error e => .error e) := by
  show (r input >>= fun p => f p.1 p.2) = _
  cases r input with
  | ok | error => rfl

variable {f : α → Reader ε β γ} {input word word' : List β} {c : γ} {e e' : ε} {a : α}
  {P : α → Prop} {p : Prop} {r' : Reader ε β α}

variable {r : Reader ε β α}

/-- A sequence yields exactly what its parts yield one after the other. -/
theorem bind_ok_iff {rest : List β} :
    (r >>= f) input = .ok (c, rest) ↔
      ∃ a mid, r input = .ok (a, mid) ∧ f a mid = .ok (c, rest) := by
  rw [bind_run]
  cases h : r input with
  | ok p =>
    constructor
    · intro hf
      exact ⟨p.1, p.2, rfl, hf⟩
    rintro ⟨a, mid, hr, hf⟩
    cases hr
    exact hf
  | error e => simp

lemma bind_error_iff :
    (r >>= f) input = .error e ↔
      r input = .error e ∨ ∃ a mid, r input = .ok (a, mid) ∧ f a mid = .error e := by
  rw [bind_run]
  cases h : r input with
  | ok p =>
    constructor
    · intro hf
      exact .inr ⟨p.1, p.2, rfl, hf⟩
    rintro (hr | ⟨a, mid, hr, hf⟩)
    · cases hr
    · cases hr
      exact hf
  | error e' => simp

/-! ### Reading a known word -/

/-- `r` takes exactly `word`, whatever follows, and yields `a`. -/
def Reads (r : Reader ε β α) (word : List β) (a : α) : Prop :=
  ∀ rest, r (word ++ rest) = .ok (a, rest)

lemma Reads.done (a : α) : Reads (pure a : Reader ε β α) [] a := fun _ => rfl

lemma Reads.bind (hr : Reads r word a) (hf : Reads (f a) word' c) :
    Reads (r >>= f) (word ++ word') c := by
  intro rest
  rw [append_assoc]
  exact (bind_ok_iff).mpr ⟨a, word' ++ rest, hr _, hf rest⟩

lemma Reads.map (hr : Reads r word a) (hf : f a = pure c) : Reads (r >>= f) word c := by
  intro rest
  exact (bind_ok_iff).mpr ⟨a, rest, hr rest, by rw [hf]; rfl⟩

lemma Reads.check (hr : r = pure a) (hf : Reads (f a) word c) : Reads (r >>= f) word c := by
  simp [hr, hf]

lemma reads_next (e : ε) (b : β) : Reads (next e) [b] b := fun _ => rfl

lemma reads_take (e : ε) (word : List β) : Reads (take e word.length) word word := by
  intro rest
  unfold take
  rw [if_pos (by simp), take_left, drop_left]

lemma reads_takeVector (e : ε) {n : Nat} (word : Vector β n) :
    Reads (takeVector e n) word.toList word := by
  intro rest
  have hlen : word.toList.length = n := by simp
  unfold takeVector
  rw [dif_pos (by simp)]
  have hvec : (⟨((word.toList ++ rest).take n).toArray, by simp⟩ : Vector β n) = word := by
    apply Vector.toList_inj.mp
    simp
  have hrest : (word.toList ++ rest).drop n = rest := by
    rw [drop_left' hlen]
  simp only [hrest, Except.ok.injEq, Prod.mk.injEq, and_true]
  exact hvec

/-! ### Reading a known word to the end -/

/-- `r` takes `word` when nothing follows, and yields `a`. -/
def ReadsAll (r : Reader ε β α) (word : List β) (a : α) : Prop := r word = .ok (a, [])

lemma Reads.all (h : Reads r word a) : ReadsAll r word a := by
  have hword := h []
  rw [append_nil] at hword
  exact hword

lemma ReadsAll.done (a : α) : ReadsAll (pure a : Reader ε β α) [] a := rfl

lemma Reads.andThen (hr : Reads r word a) (hf : ReadsAll (f a) word' c) :
    ReadsAll (r >>= f) (word ++ word') c :=
  (bind_ok_iff).mpr ⟨a, word', hr word', hf⟩

lemma ReadsAll.check (hr : r = pure a) (hf : ReadsAll (f a) word c) :
    ReadsAll (r >>= f) word c := by
  rw [hr]
  exact hf

lemma ReadsAll.andThen (hr : ReadsAll r word a) (hf : ReadsAll (f a) [] c) :
    ReadsAll (r >>= f) word c :=
  (bind_ok_iff).mpr ⟨a, [], hr, hf⟩

lemma readsAll_takeRest (word : List β) :
    ReadsAll (takeRest : Reader ε β (List β)) word word := rfl

/-! ### On every input -/

/-- What `r` leaves is an end of its input, and what it yields satisfies `P`. -/
def Yields (r : Reader ε β α) (P : α → Prop) : Prop :=
  ∀ input a rest, r input = .ok (a, rest) → rest <:+ input ∧ P a

lemma Yields.done (h : P a) : Yields (pure a : Reader ε β α) P := by
  intro input b rest hb
  cases hb
  exact ⟨suffix_refl _, h⟩

lemma Yields.fail (e : ε) (P : α → Prop) : Yields (throw e : Reader ε β α) P := by
  intro input a rest h
  cases h

lemma Yields.bind {Q : γ → Prop} (hr : Yields r P)
    (hf : ∀ a, P a → Yields (f a) Q) : Yields (r >>= f) Q := by
  intro input c rest h
  obtain ⟨a, mid, hra, hfa⟩ := (bind_ok_iff).mp h
  obtain ⟨hmid, ha⟩ := hr input a mid hra
  obtain ⟨hrest, hc⟩ := hf a ha mid c rest hfa
  exact ⟨hrest.trans hmid, hc⟩

lemma Yields.mono {Q : α → Prop} (hr : Yields r P) (h : ∀ a, P a → Q a) : Yields r Q := by
  intro input a rest hra
  obtain ⟨hrest, ha⟩ := hr input a rest hra
  exact ⟨hrest, h a ha⟩

lemma Yields.ite [Decidable p] (hr : p → Yields r P) (hr' : ¬ p → Yields r' P) :
    Yields (if p then r else r') P := by
  by_cases h : p
  · simp [h, hr]
  · simp [h, hr']

lemma yields_check (result : Except ε α) :
    Yields (check result : Reader ε β α) (fun a => result = .ok a) := by
  cases result with
  | ok a => exact Yields.done rfl
  | error e => exact Yields.fail e _

lemma yields_peek (e : ε) : Yields (peek e : Reader ε β β) (fun _ => True) := by
  intro input a rest h
  cases input with
  | nil => cases h
  | cons b tail =>
    cases h
    exact ⟨suffix_refl _, trivial⟩

lemma yields_next (e : ε) : Yields (next e : Reader ε β β) (fun _ => True) := by
  intro input a rest h
  cases input with
  | nil => cases h
  | cons b tail =>
    cases h
    exact ⟨suffix_cons _ _, trivial⟩

lemma yields_take (e : ε) (n : Nat) :
    Yields (take e n : Reader ε β (List β)) (fun word => word.length = n) := by
  intro input a rest h
  unfold take at h
  split at h
  · rename_i hn
    cases h
    exact ⟨drop_suffix _ _, length_take_of_le hn⟩
  · cases h

lemma yields_takeVector (e : ε) (n : Nat) :
    Yields (takeVector e n : Reader ε β (Vector β n)) (fun _ => True) := by
  intro input a rest h
  unfold takeVector at h
  split at h
  · cases h
    exact ⟨drop_suffix _ _, trivial⟩
  · cases h

lemma yields_takeRest : Yields (takeRest : Reader ε β (List β)) (fun _ => True) := by
  intro input a rest h
  cases h
  exact ⟨nil_suffix, trivial⟩

lemma yields_remaining : Yields (remaining : Reader ε β Nat) (fun _ => True) := by
  intro input a rest h
  cases h
  exact ⟨suffix_refl _, trivial⟩

/-- As many readings as asked for, each as it should be. -/
theorem Yields.times (hr : Yields r P) (n : Nat) :
    Yields (r.times n) (fun as => as.length = n ∧ ∀ a ∈ as, P a) := by
  induction n with
  | zero => exact Yields.done ⟨rfl, by simp⟩
  | succ n ih =>
    refine hr.bind (fun a ha => ih.bind (fun as has => Yields.done ⟨?_, ?_⟩))
    · rw [length_cons, has.1]
    intro b hb
    rcases mem_cons.mp hb with rfl | hb
    · exact ha
    · exact has.2 b hb

/-- What `r` reads off an input it also reads off every longer one. -/
def Extends (r : Reader ε β α) : Prop :=
  ∀ input a rest suffix, r input = .ok (a, rest) → r (input ++ suffix) = .ok (a, rest ++ suffix)

lemma Extends.done (a : α) : Extends (pure a : Reader ε β α) := by
  intro input b rest suffix h
  cases h
  rfl

lemma Extends.bind (hr : Extends r) (hf : ∀ a, Extends (f a)) : Extends (r >>= f) := by
  intro input c rest suffix h
  obtain ⟨a, mid, hra, hfa⟩ := (bind_ok_iff).mp h
  exact (bind_ok_iff).mpr ⟨a, mid ++ suffix, hr _ _ _ _ hra, hf a _ _ _ _ hfa⟩

lemma extends_peek (e : ε) : Extends (peek e : Reader ε β β) := by
  intro input a rest suffix h
  cases input with
  | nil => cases h
  | cons b tail =>
    cases h
    rfl

lemma extends_take (e : ε) (n : Nat) : Extends (take e n : Reader ε β (List β)) := by
  intro input a rest suffix h
  unfold take at h ⊢
  split at h
  · rename_i hn
    cases h
    rw [if_pos (by rw [length_append]; omega), take_append_of_le_length hn,
      drop_append_of_le_length hn]
  · cases h

/-- `r` never fails with `e`. -/
def Avoids (e : ε) (r : Reader ε β α) : Prop := ∀ input, r input ≠ .error e

lemma Avoids.done (e : ε) (a : α) : Avoids e (pure a : Reader ε β α) := by
  intro input h
  cases h

lemma Avoids.fail (h : e' ≠ e) : Avoids e (throw e' : Reader ε β α) := by
  intro input hfail
  cases hfail
  exact h rfl

lemma Avoids.bind (hr : Avoids e r) (hf : ∀ a, Avoids e (f a)) : Avoids e (r >>= f) := by
  intro input h
  rcases (bind_error_iff).mp h with h | ⟨a, mid, -, h⟩
  · exact hr input h
  · exact hf a mid h

lemma Avoids.ite [Decidable p] (hr : Avoids e r) (hr' : Avoids e r') :
    Avoids e (if p then r else r') := by
  split
  · exact hr
  · exact hr'

lemma avoids_check {result : Except ε α} (h : result ≠ .error e) :
    Avoids e (check result : Reader ε β α) := by
  cases result with
  | ok a => exact Avoids.done _ a
  | error e => exact Avoids.fail (fun he => h (by rw [he]))

lemma avoids_peek (h : e' ≠ e) : Avoids e (peek e' : Reader ε β β) := by
  intro input hfail
  cases input with
  | nil =>
    cases hfail
    exact h rfl
  | cons b tail => cases hfail

lemma avoids_take (h : e' ≠ e) (n : Nat) : Avoids e (take e' n : Reader ε β (List β)) := by
  intro input hfail
  unfold take at hfail
  split at hfail
  · cases hfail
  · cases hfail
    exact h rfl

lemma avoids_remaining (e : ε) : Avoids e (remaining : Reader ε β Nat) := by
  intro input h
  cases h

end Reader

end Netz.Lib

/-! ### Readers whose input arrives in pieces

A reader that fails with `short` may succeed once there is more input.  It is incremental where
nothing else changes with more input: what it reads it reads again, and other failures stay.

`Drains` reads as often as it can: the values, the failure that ended it, where it was not for lack
of input, and what was left.  For an incremental reader it does not matter where the input is cut. -/

namespace Netz.Lib

namespace Reader

variable {ε β α γ : Type} {short : ε}

/-- More input changes nothing but the failure for lack of it. -/
structure Incremental (short : ε) (r : Reader ε β α) : Prop where
  success : Extends r
  failure : ∀ input e suffix, r input = .error e → e ≠ short → r (input ++ suffix) = .error e

namespace Incremental

lemma done (a : α) : Incremental short (pure a : Reader ε β α) where
  success := Extends.done a
  failure := by
    intro input e suffix h
    cases h

lemma fail (e : ε) : Incremental short (throw e : Reader ε β α) where
  success := by
    intro input a rest suffix h
    cases h
  failure := by
    intro input e' suffix h _
    exact h

lemma bind {r : Reader ε β α} {f : α → Reader ε β γ} (hr : Incremental short r)
    (hf : ∀ a, Incremental short (f a)) : Incremental short (r >>= f) where
  success := hr.success.bind fun a => (hf a).success
  failure := by
    intro input e suffix h hne
    rcases (bind_error_iff).mp h with hfirst | ⟨a, mid, hfirst, hsecond⟩
    · exact (bind_error_iff).mpr (.inl (hr.failure input e suffix hfirst hne))
    · exact (bind_error_iff).mpr (.inr ⟨a, mid ++ suffix, hr.success _ _ _ _ hfirst,
        (hf a).failure mid e suffix hsecond hne⟩)

lemma check (x : Except ε α) : Incremental short (Reader.check x : Reader ε β α) := by
  cases x with
  | ok a => exact done a
  | error e => exact fail e

lemma take (n : Nat) : Incremental short (Reader.take short n : Reader ε β (List β)) where
  success := extends_take short n
  failure := by
    intro input e suffix h hne
    unfold Reader.take at h
    split at h
    · cases h
    · cases h
      exact absurd rfl hne

end Incremental

/-! ### Reading as often as possible -/

/-- `r` reads `as` off the input, one value after the other, and leaves `left`, where it fails:
with `failure`, or for lack of input. -/
inductive Drains (short : ε) (r : Reader ε β α) : List β → List α → Option ε → List β → Prop where
  | stop {input : List β} (h : r input = .error short) : Drains short r input [] none input
  | fail {input : List β} {e : ε} (h : r input = .error e) (hne : e ≠ short) :
      Drains short r input [] (some e) input
  | step {input rest left : List β} {a : α} {as : List α} {failure : Option ε}
      (h : r input = .ok (a, rest)) (hrest : Drains short r rest as failure left) :
      Drains short r input (a :: as) failure left

namespace Drains

variable {r : Reader ε β α}

variable {input left first rest : List β} {as : List α} {e : ε}

lemma left_fails (h : Drains short r input as (some e) left) : r left = .error e ∧ e ≠ short := by
  generalize hsome : some e = failure at h
  induction h with
  | stop _ => cases hsome
  | fail h hne =>
    cases hsome
    exact ⟨h, hne⟩
  | step _ _ ih => exact ih hsome

/-- **More input goes on where the first ended.** -/
theorem append (hr : Incremental short r) {left' : List β} {bs : List α} {failure : Option ε}
    (h : Drains short r first as none left)
    (hrest : Drains short r (left ++ rest) bs failure left') :
    Drains short r (first ++ rest) (as ++ bs) failure left' := by
  generalize hnone : (none : Option ε) = ended at h
  induction h with
  | stop _ => exact hrest
  | fail _ _ => cases hnone
  | step h _ ih => exact .step (hr.success _ _ _ rest h) (ih hrest hnone)

lemma append_fail (hr : Incremental short r) (h : Drains short r first as (some e) left) :
    Drains short r (first ++ rest) as (some e) (left ++ rest) := by
  generalize hsome : some e = ended at h ⊢
  induction h with
  | stop _ => cases hsome
  | fail h hne => exact .fail (hr.failure _ _ rest h hne) hne
  | step h _ ih => exact .step (hr.success _ _ _ rest h) (ih hsome)

lemma unique {input left left' : List β} {as bs : List α} {failure failure' : Option ε}
    (h : Drains short r input as failure left) (h' : Drains short r input bs failure' left') :
    as = bs ∧ failure = failure' ∧ left = left' := by
  induction h generalizing bs failure' left' with
  | stop h =>
    cases h' with
    | stop _ => exact ⟨rfl, rfl, rfl⟩
    | fail h' hne =>
      rw [h] at h'
      cases h'
      exact absurd rfl hne
    | step h' _ => simp [h] at h'
  | fail h hne =>
    cases h' with
    | stop h' =>
      rw [h] at h'
      cases h'
      exact absurd rfl hne
    | fail h' _ =>
      rw [h] at h'
      cases h'
      exact ⟨rfl, rfl, rfl⟩
    | step h' _ => simp [h] at h'
  | step h _ ih =>
    cases h' with
    | stop h' => simp [h] at h'
    | fail h' _ => simp [h] at h'
    | step h' hrest' =>
      rw [h] at h'
      cases h'
      obtain ⟨rfl, rfl, rfl⟩ := ih hrest'
      exact ⟨rfl, rfl, rfl⟩

end Drains

end Reader

end Netz.Lib
