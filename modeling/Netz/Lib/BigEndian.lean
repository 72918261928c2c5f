/-
Fixed-width big-endian integers as byte lists.
-/
import Mathlib.Data.List.Induction
import Mathlib.Data.Nat.Basic
import Mathlib.Tactic.Ring

namespace Netz.Lib

open List

/-- The low `8 * n` bits of `value`, most significant byte first. -/
def bigEndian : Nat → Nat → List UInt8
  | 0, _ => []
  | n + 1, value => UInt8.ofNat (value / 256 ^ n) :: bigEndian n value

/-- The integer that the bytes spell, most significant byte first. -/
def ofBigEndian (bytes : List UInt8) : Nat :=
  bytes.foldl (fun acc byte => acc * 256 + byte.toNat) 0

@[simp] lemma length_bigEndian (n value : Nat) : (bigEndian n value).length = n := by
  induction n with
  | zero => rfl
  | succ n ih => rw [bigEndian, length_cons, ih]

private lemma foldl_bigEndian (n value : Nat) :
    ∀ acc, (bigEndian n value).foldl (fun acc byte => acc * 256 + byte.toNat) acc =
      acc * 256 ^ n + value % 256 ^ n := by
  induction n with
  | zero => simp [bigEndian, Nat.mod_one]
  | succ n ih =>
    intro acc
    rw [bigEndian, foldl_cons, ih]
    have hbyte : (UInt8.ofNat (value / 256 ^ n)).toNat = value / 256 ^ n % 256 := by simp
    rw [hbyte, Nat.pow_succ, Nat.mod_mul]
    ring

/-- Writing and reading back keeps the low bits. -/
theorem ofBigEndian_bigEndian (n value : Nat) :
    ofBigEndian (bigEndian n value) = value % 256 ^ n := by
  unfold ofBigEndian
  rw [foldl_bigEndian, Nat.zero_mul, Nat.zero_add]

lemma ofBigEndian_lt (bytes : List UInt8) : ofBigEndian bytes < 256 ^ bytes.length := by
  unfold ofBigEndian
  induction bytes using reverseRecOn with
  | nil => simp
  | append_singleton front byte ih =>
    have hbyte := byte.toNat_lt
    rw [foldl_append, foldl_cons, foldl_nil, length_append,
      length_singleton]
    omega

end Netz.Lib
