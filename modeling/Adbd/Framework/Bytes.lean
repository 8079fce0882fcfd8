import Mathlib.Data.List.Basic
import Mathlib.Data.Nat.ModEq
import Mathlib.Tactic.Lemma

/-!
# Byte strings

The object representation of an unsigned integer on a little-endian machine: `leBytes n v` is
the list of its `n` bytes, `leValue` reads a list of bytes back.  The two are mutually inverse
on `n`-byte lists and numbers below `256 ^ n`, so a struct of unsigned fields and the bytes it
occupies determine each other.

A C string in a buffer ends at the first zero byte, `takeWhile (· ≠ 0)`; what follows the first
zero does not matter.
-/

namespace Bytes

/-- The `n` low bytes of `v`, least significant first. -/
def leBytes : ℕ → ℕ → List UInt8
  | 0, _ => []
  | n + 1, v => UInt8.ofNat (v % 256) :: leBytes n (v / 256)

/-- The number that little-endian bytes spell. -/
def leValue : List UInt8 → ℕ
  | [] => 0
  | b :: bs => b.toNat + 256 * leValue bs

@[simp] lemma length_leBytes (n v : ℕ) : (leBytes n v).length = n := by
  induction n generalizing v with
  | zero => rfl
  | succ n ih => simp [leBytes, ih]

lemma leValue_leBytes {n v : ℕ} (h : v < 256 ^ n) : leValue (leBytes n v) = v := by
  induction n generalizing v with
  | zero =>
    have hv : v = 0 := by simpa using h
    simp [leBytes, leValue, hv]
  | succ n ih =>
    have hdiv : v / 256 < 256 ^ n := by
      rw [pow_succ] at h
      omega
    rw [leBytes, leValue, ih hdiv]
    simp only [UInt8.toNat_ofNat', Nat.reducePow]
    omega

lemma leBytes_leValue (bs : List UInt8) : leBytes bs.length (leValue bs) = bs := by
  induction bs with
  | nil => rfl
  | cons b bs ih =>
    have hb : b.toNat < 256 := b.toNat_lt
    have hmod : (b.toNat + 256 * leValue bs) % 256 = b.toNat := by omega
    have hdiv : (b.toNat + 256 * leValue bs) / 256 = leValue bs := by omega
    rw [List.length_cons, leBytes, leValue, hmod, hdiv, ih, UInt8.ofNat_toNat]

lemma leValue_lt (bs : List UInt8) : leValue bs < 256 ^ bs.length := by
  induction bs with
  | nil => simp [leValue]
  | cons b bs ih =>
    have hb : b.toNat < 256 := b.toNat_lt
    rw [leValue, List.length_cons, pow_succ]
    omega

/-! ## C strings -/

/-- The first terminator of a text is the first of anything that begins with the text. -/
lemma takeWhile_append_of_mem {bs rest : List UInt8} (h : 0 ∈ bs) :
    (bs ++ rest).takeWhile (· ≠ 0) = bs.takeWhile (· ≠ 0) := by
  induction bs with
  | nil => simp at h
  | cons b bs ih =>
    by_cases hb : b = 0
    · simp [hb]
    · have hmem : 0 ∈ bs := (List.mem_cons.mp h).resolve_left (Ne.symm hb)
      rw [List.cons_append, List.takeWhile_cons_of_pos (by simp [hb]),
        List.takeWhile_cons_of_pos (by simp [hb]), ih hmem]

end Bytes
