import Mathlib.Data.List.Basic
import Mathlib.Tactic.Lemma

/-!
# Packed flag words

A C program that keeps several independent flags in one machine word tests, sets and clears
them with `&`, `|` and `&~` against constant masks.  `has x m` is the test `(x & m) != 0`; the
lemmas below say how it reads through the three operations, with the relation between the two
masks (`disjoint` or `covered`) as a side condition that `decide` settles for constants.  No
reasoning about single bits is left to the callers.
-/

namespace FlagWord

variable {w : ℕ}

/-- The C test `(x & m) != 0`. -/
def has (x m : BitVec w) : Bool := x &&& m != 0#w

lemma has_eq_true {x m : BitVec w} : has x m = true ↔ x &&& m ≠ 0#w := by
  simp [has]

lemma has_eq_false {x m : BitVec w} : has x m = false ↔ x &&& m = 0#w := by
  simp [has]

@[simp] lemma has_zero_left (m : BitVec w) : has (0#w) m = false := by
  simp [has]

/-- A test reads a union word by word. -/
@[simp] lemma has_or (x y m : BitVec w) : has (x ||| y) m = (has x m || has y m) := by
  rw [Bool.eq_iff_iff, Bool.or_eq_true, has_eq_true, has_eq_true, has_eq_true,
    BitVec.and_or_distrib_right, ne_eq, BitVec.or_eq_zero_iff]
  tauto

/-- A test against a union of masks is the union of the tests. -/
lemma has_or_mask (x m n : BitVec w) : has x (m ||| n) = (has x m || has x n) := by
  rw [Bool.eq_iff_iff, Bool.or_eq_true, has_eq_true, has_eq_true, has_eq_true,
    BitVec.and_or_distrib_left, ne_eq, BitVec.or_eq_zero_iff]
  tauto

/-- Restricting to a mask `k` that covers `m` does not change the test. -/
lemma has_and_of_covered {x k m : BitVec w} (h : k &&& m = m) :
    has (x &&& k) m = has x m := by
  rw [has, has, BitVec.and_assoc, h]

/-- Restricting to a mask `k` disjoint from `m` clears the test. -/
lemma has_and_of_disjoint {x k m : BitVec w} (h : k &&& m = 0#w) :
    has (x &&& k) m = false := by
  rw [has_eq_false, BitVec.and_assoc, h]
  simp

/-- Clearing the bits of `k` does not change a test disjoint from `k`. -/
lemma has_and_not_of_disjoint {x k m : BitVec w} (h : k &&& m = 0#w) :
    has (x &&& ~~~k) m = has x m := by
  apply has_and_of_covered
  calc ~~~k &&& m = (k &&& m) ||| (~~~k &&& m) := by rw [h]; simp
    _ = (k ||| ~~~k) &&& m := BitVec.and_or_distrib_right.symm
    _ = m := by simp

/-- Setting flags that were clear and clearing them again. -/
lemma or_and_not {x m : BitVec w} (h : has x m = false) : (x ||| m) &&& ~~~m = x := by
  rw [has_eq_false] at h
  calc (x ||| m) &&& ~~~m = x &&& ~~~m := by rw [BitVec.and_or_distrib_right]; simp
    _ = (x &&& m) ||| (x &&& ~~~m) := by rw [h]; simp
    _ = x &&& (m ||| ~~~m) := BitVec.and_or_distrib_left.symm
    _ = x := by simp

/-- Restricting a word cannot make a test succeed. -/
lemma has_of_has_and {x y m : BitVec w} (h : has (x &&& y) m = true) : has x m = true := by
  rw [has_eq_true] at h ⊢
  intro hzero
  apply h
  calc x &&& y &&& m = (x &&& m) &&& y := by
        rw [BitVec.and_assoc, BitVec.and_comm y, BitVec.and_assoc]
    _ = 0#w := by rw [hzero]; simp

/-- Two words that agree on `k` agree on every test covered by `k`. -/
lemma has_congr {x y k m : BitVec w} (hxy : x &&& k = y &&& k) (h : k &&& m = m) :
    has x m = has y m := by
  rw [← has_and_of_covered (x := x) h, hxy, has_and_of_covered h]

/-! ## Two ways of masking -/

/-- A word keeps all of its flags exactly when none of them is outside the mask. -/
lemma and_eq_self_iff {x m : BitVec w} : x = x &&& m ↔ x &&& ~~~m = 0#w := by
  constructor
  · intro h
    rw [h, BitVec.and_assoc, BitVec.and_not_self]
    simp
  · intro h
    calc x = x &&& (m ||| ~~~m) := by simp
      _ = x &&& m := by rw [BitVec.and_or_distrib_left, h]; simp

/-- Masking with a complement is the same as masking with the mask and some more only for
words that have nothing in the mask and nothing but the more outside. -/
lemma and_not_eq_and_or_iff {x m k : BitVec w} :
    x &&& ~~~m = x &&& (m ||| k) ↔ x &&& (m ||| ~~~k) = 0#w := by
  simp only [BitVec.eq_of_getElem_eq_iff, BitVec.getElem_and, BitVec.getElem_or,
    BitVec.getElem_not, BitVec.getElem_zero]
  refine forall_congr' fun i => forall_congr' fun hi => ?_
  cases x[i] <;> cases m[i] <;> cases k[i] <;> simp

end FlagWord
