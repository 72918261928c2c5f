/-
Bit strings, most significant bit first.

`bitsOf n value` spells the low `n` bits of a number and `ofBits` reads them back.  A bit string
is the concatenation of its parts as a number is the sum of its digits, so what is packed into
bytes is followed on the bits.
-/
import Mathlib.Data.List.Induction
import Mathlib.Data.Nat.Bitwise
import Mathlib.Tactic.Ring
import Mathlib.Data.List.Pairwise

namespace Netz.Lib

open List

/-- The low `n` bits of `value`. -/
def bitsOf : Nat → Nat → List Bool
  | 0, _ => []
  | n + 1, value => value.testBit n :: bitsOf n value

/-- The number that the bits spell. -/
def ofBits (bits : List Bool) : Nat := bits.foldl (fun value bit => 2 * value + bit.toNat) 0

/-- The bits of a byte string. -/
def bitsOfBytes (bytes : List UInt8) : List Bool := bytes.flatMap fun byte => bitsOf 8 byte.toNat

@[simp] lemma length_bitsOf (n value : Nat) : (bitsOf n value).length = n := by
  induction n with
  | zero => rfl
  | succ n ih => rw [bitsOf, length_cons, ih]

lemma bitsOf_congr {n value value' : Nat} (h : value % 2 ^ n = value' % 2 ^ n) :
    bitsOf n value = bitsOf n value' := by
  have hall : ∀ m ≤ n, bitsOf m value = bitsOf m value' := by
    intro m
    induction m with
    | zero => intro _; rfl
    | succ m ih =>
      intro hm
      have hbit : value.testBit m = value'.testBit m := by
        have hmod := congrArg (fun v => v.testBit m) h
        simpa [Nat.testBit_mod_two_pow, show m < n by omega] using hmod
      rw [bitsOf, bitsOf, hbit, ih (by omega)]
  exact hall n (Nat.le_refl n)

lemma bitsOf_append (m n high low : Nat) (h : low < 2 ^ n) :
    bitsOf (m + n) (high * 2 ^ n + low) = bitsOf m high ++ bitsOf n low := by
  induction m with
  | zero =>
    rw [Nat.zero_add, bitsOf]
    apply bitsOf_congr
    rw [Nat.mul_add_mod']
  | succ m ih =>
    have hbit : (high * 2 ^ n + low).testBit (m + n) = high.testBit m := by
      rw [Nat.mul_comm, Nat.testBit_two_pow_mul_add high h]
      simp
    rw [Nat.succ_add, bitsOf, bitsOf, hbit, ih, cons_append]

/-- The front of a bit string is the front of the number. -/
theorem bitsOf_split (m n value : Nat) :
    bitsOf (m + n) value = bitsOf m (value / 2 ^ n) ++ bitsOf n (value % 2 ^ n) := by
  rw [← bitsOf_append m n (value / 2 ^ n) (value % 2 ^ n) (Nat.mod_lt _ (Nat.two_pow_pos n)),
    Nat.mul_comm, Nat.div_add_mod]

lemma bitsOf_ones (n : Nat) : bitsOf n (2 ^ n - 1) = replicate n true := by
  have hall : ∀ m ≤ n, bitsOf m (2 ^ n - 1) = replicate m true := by
    intro m
    induction m with
    | zero => intro _; rfl
    | succ m ih =>
      intro hm
      rw [bitsOf, ih (by omega), Nat.testBit_two_pow_sub_one, decide_eq_true (by omega),
        replicate_succ]
  exact hall n (Nat.le_refl n)

/-! ### Reading bits -/

lemma ofBits_append (bits more : List Bool) :
    ofBits (bits ++ more) = ofBits bits * 2 ^ more.length + ofBits more := by
  induction more using reverseRecOn with
  | nil => simp [ofBits]
  | append_singleton more bit ih =>
    unfold ofBits at ih ⊢
    rw [← append_assoc, foldl_append, ih, foldl_append, length_append,
      length_singleton]
    simp only [foldl_cons, foldl_nil]
    ring

lemma ofBits_concat (bits : List Bool) (bit : Bool) :
    ofBits (bits ++ [bit]) = 2 * ofBits bits + bit.toNat := by simp [ofBits]

lemma ofBits_lt (bits : List Bool) : ofBits bits < 2 ^ bits.length := by
  induction bits using reverseRecOn with
  | nil => simp [ofBits]
  | append_singleton bits bit ih =>
    rw [ofBits_concat, length_append, length_singleton]
    have hbit : bit.toNat ≤ 1 := Bool.toNat_le bit
    omega

lemma ofBits_ones (n : Nat) : ofBits (replicate n true) = 2 ^ n - 1 := by
  induction n with
  | zero => rfl
  | succ n ih =>
    rw [replicate_succ', ofBits_concat, ih]
    have hpos := Nat.two_pow_pos n
    show 2 * (2 ^ n - 1) + 1 = _
    omega

lemma ofBits_bitsOf (n value : Nat) : ofBits (bitsOf n value) = value % 2 ^ n := by
  induction n generalizing value with
  | zero => simp [ofBits, bitsOf, Nat.mod_one]
  | succ n ih =>
    rw [bitsOf, ← singleton_append, ofBits_append, ih, Nat.pow_succ,
      Nat.mod_mul, Nat.add_comm]
    unfold ofBits
    rw [Nat.testBit_eq_decide_div_mod_eq]
    rcases Nat.mod_two_eq_zero_or_one (value / 2 ^ n) with h | h
    · simp [h]
    · simp [h]

lemma bitsOf_ofBits (bits : List Bool) : bitsOf bits.length (ofBits bits) = bits := by
  induction bits using reverseRecOn with
  | nil => rfl
  | append_singleton bits bit ih =>
    have happ := bitsOf_append bits.length 1 (ofBits bits) bit.toNat (Bool.toNat_lt bit)
    rw [ofBits_concat, length_append, length_singleton, Nat.mul_comm 2]
    rw [Nat.pow_one] at happ
    rw [happ, ih]
    cases bit <;> rfl

/-- When one bit string begins another, its number is the front of the other number. -/
theorem eq_of_bitsOf_begins {n m value longer : Nat} (hvalue : value < 2 ^ n)
    (hbegin : bitsOf n value <+: bitsOf m longer) :
    n ≤ m ∧ longer / 2 ^ (m - n) % 2 ^ n = value := by
  have hle : n ≤ m := by simpa using hbegin.length_le
  refine ⟨hle, ?_⟩
  have hsplit : bitsOf m longer = bitsOf n (longer / 2 ^ (m - n)) ++
      bitsOf (m - n) (longer % 2 ^ (m - n)) := by
    rw [← bitsOf_split, Nat.add_sub_cancel' hle]
  rw [hsplit] at hbegin
  have hsame : bitsOf n value = bitsOf n (longer / 2 ^ (m - n)) :=
    (prefix_of_prefix_length_le hbegin (prefix_append _ _) (by simp)).eq_of_length
      (by simp)
  rw [← ofBits_bitsOf, ← hsame, ofBits_bitsOf, Nat.mod_eq_of_lt hvalue]

/-! ### Bytes -/

lemma bitsOfBytes_append (bytes more : List UInt8) :
    bitsOfBytes (bytes ++ more) = bitsOfBytes bytes ++ bitsOfBytes more := flatMap_append

lemma length_bitsOfBytes (bytes : List UInt8) :
    (bitsOfBytes bytes).length = 8 * bytes.length := by
  induction bytes with
  | nil => rfl
  | cons byte rest ih =>
    unfold bitsOfBytes at ih ⊢
    rw [flatMap_cons, length_append, length_bitsOf, length_cons]
    omega

lemma bitsOfBytes_injective : Function.Injective bitsOfBytes := by
  intro bytes more h
  have hlen : bytes.length = more.length := by
    have hlen := congrArg length h
    rw [length_bitsOfBytes, length_bitsOfBytes] at hlen
    omega
  induction bytes generalizing more with
  | nil => exact (eq_nil_of_length_eq_zero hlen.symm).symm
  | cons byte rest ih =>
    cases more with
    | nil => cases hlen
    | cons other more =>
      unfold bitsOfBytes at h ih
      rw [flatMap_cons, flatMap_cons] at h
      obtain ⟨hbyte, hrest⟩ := append_inj h (by rw [length_bitsOf, length_bitsOf])
      have hvalue := congrArg ofBits hbyte
      rw [ofBits_bitsOf, ofBits_bitsOf, Nat.mod_eq_of_lt byte.toNat_lt,
        Nat.mod_eq_of_lt other.toNat_lt] at hvalue
      rw [UInt8.toNat_inj.mp hvalue, ih hrest (Nat.succ.inj hlen)]

lemma bitsOfBytes_singleton (value : Nat) : bitsOfBytes [UInt8.ofNat value] = bitsOf 8 value := by
  unfold bitsOfBytes
  rw [flatMap_singleton]
  apply bitsOf_congr
  simp

end Netz.Lib

/-! ### Prefix codes and the tries that decode them

A trie is built by inserting one code word after the other.  In a prefix-free code no word is
met on the way to another, so a walk along a word finds no symbol before its end, and there the
symbol of that word. -/

namespace Netz.Lib

open List

universe u

/-- A binary trie; `empty` is a missing child. -/
inductive Trie (α : Type u) where
  | empty
  | node (symbol : Option α) (zero one : Trie α)

namespace Trie

variable {α : Type u}

def symbol : Trie α → Option α
  | empty => none
  | node found _ _ => found

def child : Trie α → Bool → Trie α
  | empty, _ => empty
  | node _ zero one, bit => if bit then one else zero

def isEmpty : Trie α → Bool
  | empty => true
  | node _ _ _ => false

/-- The node behind these bits. -/
def walk (trie : Trie α) (bits : List Bool) : Trie α := bits.foldl child trie

/-- `a` at the end of `word`; missing nodes on the way are made. -/
def insert (trie : Trie α) : List Bool → α → Trie α
  | [], a => node (some a) (trie.child false) (trie.child true)
  | false :: word, a => node trie.symbol ((trie.child false).insert word a) (trie.child true)
  | true :: word, a => node trie.symbol (trie.child false) ((trie.child true).insert word a)

/-- The trie of a code. -/
def build (code : List (List Bool × α)) : Trie α :=
  code.foldl (fun trie entry => trie.insert entry.1 entry.2) empty

@[simp] lemma walk_nil (trie : Trie α) : trie.walk [] = trie := rfl

@[simp] lemma walk_cons (trie : Trie α) (bit : Bool) (bits : List Bool) :
    trie.walk (bit :: bits) = (trie.child bit).walk bits := rfl

lemma walk_concat (trie : Trie α) (bits : List Bool) (bit : Bool) :
    trie.walk (bits ++ [bit]) = (trie.walk bits).child bit := by simp [walk]

lemma walk_empty (bits : List Bool) : (empty : Trie α).walk bits = empty := by
  induction bits with
  | nil => rfl
  | cons bit bits ih => exact ih

/-- The child of an insertion is an insertion, or it is the child there was. -/
theorem child_insert (trie : Trie α) (first : Bool) (word : List Bool) (a : α) (bit : Bool) :
    (trie.insert (first :: word) a).child bit =
      if bit = first then (trie.child bit).insert word a else trie.child bit := by
  cases first <;> cases bit <;> rfl

/-- **An insertion changes the symbol at its own word**, and no other. -/
theorem symbol_walk_insert (trie : Trie α) (word : List Bool) (a : α) (bits : List Bool) :
    ((trie.insert word a).walk bits).symbol =
      if bits = word then some a else (trie.walk bits).symbol := by
  induction word generalizing trie bits with
  | nil =>
    cases bits with
    | nil => rfl
    | cons bit bits => cases bit <;> rfl
  | cons first word ih =>
    cases bits with
    | nil => cases first <;> rfl
    | cons bit bits =>
      rw [walk_cons, walk_cons, child_insert]
      by_cases hbit : bit = first
      · simp [hbit, ih]
      · rw [if_neg hbit, if_neg (by simp [hbit])]

/-- The nodes of an insertion are those on the way to its word, and those there were. -/
theorem isEmpty_walk_insert (trie : Trie α) (word : List Bool) (a : α) (bits : List Bool) :
    ((trie.insert word a).walk bits).isEmpty = false ↔
      bits <+: word ∨ (trie.walk bits).isEmpty = false := by
  induction word generalizing trie bits with
  | nil =>
    cases bits with
    | nil => simp [insert, isEmpty]
    | cons bit bits => cases bit <;> simp [insert, child]
  | cons first word ih =>
    cases bits with
    | nil => cases first <;> simp [insert, isEmpty]
    | cons bit bits =>
      rw [walk_cons, child_insert]
      by_cases hbit : bit = first
      · simp [hbit, ih]
      · simp [hbit]

/-- What a longer code adds to a trie. -/
theorem symbol_walk_foldl {code : List (List Bool × α)} (trie : Trie α) (bits : List Bool)
    (hmissing : ∀ entry ∈ code, entry.1 ≠ bits) :
    ((code.foldl (fun trie entry => trie.insert entry.1 entry.2) trie).walk bits).symbol =
      (trie.walk bits).symbol := by
  induction code generalizing trie with
  | nil => rfl
  | cons entry rest ih =>
    rw [foldl_cons, ih _ fun other hmem => hmissing other (mem_cons_of_mem entry hmem),
      symbol_walk_insert, if_neg (hmissing entry mem_cons_self).symm]

lemma isEmpty_walk_foldl {code : List (List Bool × α)} (trie : Trie α) (bits : List Bool) :
    ((code.foldl (fun trie entry => trie.insert entry.1 entry.2) trie).walk bits).isEmpty = false ↔
      (∃ entry ∈ code, bits <+: entry.1) ∨ (trie.walk bits).isEmpty = false := by
  induction code generalizing trie with
  | nil => simp
  | cons entry rest ih =>
    rw [foldl_cons, ih, isEmpty_walk_insert]
    constructor
    · rintro (⟨other, hmem, hbegin⟩ | hbegin | hold)
      · exact .inl ⟨other, mem_cons_of_mem entry hmem, hbegin⟩
      · exact .inl ⟨entry, mem_cons_self, hbegin⟩
      · exact .inr hold
    rintro (⟨other, hmem, hbegin⟩ | hold)
    · rcases mem_cons.mp hmem with rfl | hlater
      · exact .inr (.inl hbegin)
      · exact .inl ⟨other, hlater, hbegin⟩
    · exact .inr (.inr hold)

end Trie

/-! ### Prefix-free codes -/

/-- **No word is the beginning of another.** -/
def PrefixFree {α : Type u} (code : List (List Bool × α)) : Prop :=
  code.Pairwise fun a b => ¬ a.1 <+: b.1 ∧ ¬ b.1 <+: a.1

namespace PrefixFree

variable {α : Type u} {code : List (List Bool × α)}

lemma eq_of_begins (h : PrefixFree code) {entry other : List Bool × α} (hent : entry ∈ code)
    (hother : other ∈ code) (hbegin : entry.1 <+: other.1) : entry = other := by
  by_contra hne
  have hsymm : Std.Symm fun a b : List Bool × α => ¬ a.1 <+: b.1 ∧ ¬ b.1 <+: a.1 :=
    ⟨fun _ _ hab => ⟨hab.2, hab.1⟩⟩
  exact (Pairwise.forall h hent hother hne).1 hbegin

lemma symbol_walk (h : PrefixFree code) {word : List Bool} {a : α} (hmem : (word, a) ∈ code) :
    ((Trie.build code).walk word).symbol = some a := by
  unfold Trie.build
  obtain ⟨before, after, rfl⟩ := append_of_mem hmem
  have hafter : ∀ entry ∈ after, entry.1 ≠ word := by
    intro entry hent hsame
    have hpair := (pairwise_append.mp h).2.1
    rw [pairwise_cons] at hpair
    exact (hpair.1 entry hent).2 (hsame ▸ prefix_refl entry.1)
  rw [foldl_append, foldl_cons, Trie.symbol_walk_foldl _ _ hafter,
    Trie.symbol_walk_insert, if_pos rfl]

lemma symbol_walk_before (h : PrefixFree code) {word bits : List Bool} {a : α}
    (hmem : (word, a) ∈ code) (hbegin : bits <+: word) (hne : bits ≠ word) :
    ((Trie.build code).walk bits).symbol = none := by
  unfold Trie.build
  rw [Trie.symbol_walk_foldl _ _ fun entry hent hsame => ?_, Trie.walk_empty]
  · rfl
  · have hentryWord : entry = (word, a) := h.eq_of_begins hent hmem (by rw [hsame]; exact hbegin)
    exact hne (hsame.symm.trans (congrArg Prod.fst hentryWord))

lemma mem_of_symbol (h : PrefixFree code) {bits : List Bool} {a : α}
    (hsymbol : ((Trie.build code).walk bits).symbol = some a) :
    (bits, a) ∈ code := by
  by_cases hword : ∃ entry ∈ code, entry.1 = bits
  · obtain ⟨⟨word, b⟩, hmem, rfl⟩ := hword
    rw [h.symbol_walk hmem] at hsymbol
    cases hsymbol
    exact hmem
  · unfold Trie.build at hsymbol
    rw [Trie.symbol_walk_foldl _ _ fun entry hmem hsame => hword ⟨entry, hmem, hsame⟩,
      Trie.walk_empty] at hsymbol
    cases hsymbol

end PrefixFree

lemma Trie.isEmpty_walk_build {α : Type u} {code : List (List Bool × α)} {word bits : List Bool}
    {a : α} (hmem : (word, a) ∈ code) (hbegin : bits <+: word) :
    ((Trie.build code).walk bits).isEmpty = false :=
  (isEmpty_walk_foldl _ bits).mpr (.inl ⟨(word, a), hmem, hbegin⟩)

end Netz.Lib
