import Mathlib.Algebra.Order.BigOperators.Group.Finset
import Mathlib.Algebra.Ring.Int.Defs
import Mathlib.Algebra.Ring.Nat
import Mathlib.Tactic.Lemma

/-!
# What a heap weighs

A heap is a partial map from addresses to objects.  Addresses are handed out in order and never
twice, so from some address on there is nothing.  Once each object is given a weight, the heap
has one: the sum over the addresses below that bound.  Storing an object changes the sum by what
was there before and what is there now; the lemmas say so without subtraction, in any
commutative monoid.
-/

namespace Heap

open Finset Function

variable {β M : Type*} {S : ℕ → Option β} {n a : ℕ} {b b' : β}

section Total

variable [AddCommMonoid M] {w : β → M}

/-- The weight of what is stored at an address. -/
def weigh (w : β → M) (o : Option β) : M := o.elim 0 w

/-- The weight of the objects at the addresses below `n`. -/
def total (w : β → M) (S : ℕ → Option β) (n : ℕ) : M := ∑ a ∈ range n, weigh w (S a)

/-- Writing to one address. -/
lemma total_update (ha : a < n) (o : Option β) :
    total w (update S a o) n + weigh w (S a) = total w S n + weigh w o := by
  have hmem : a ∈ range n := mem_range.mpr ha
  have hrest : ∑ i ∈ (range n).erase a, weigh w (update S a o i) =
      ∑ i ∈ (range n).erase a, weigh w (S i) := by
    apply sum_congr rfl
    intro i hi
    rw [update_of_ne (ne_of_mem_erase hi)]
  calc total w (update S a o) n + weigh w (S a)
      = ∑ i ∈ (range n).erase a, weigh w (S i) + weigh w o + weigh w (S a) := by
        rw [total, ← sum_erase_add _ _ hmem, hrest, update_self]
    _ = ∑ i ∈ (range n).erase a, weigh w (S i) + weigh w (S a) + weigh w o := add_right_comm ..
    _ = total w S n + weigh w o := by
        rw [total, ← sum_erase_add (range n) (fun i => weigh w (S i)) hmem]

/-- An object replaced by one of the same weight, at any address. -/
lemma total_update_same {o : Option β} (h : weigh w o = weigh w (S a)) :
    total w (update S a o) n = total w S n := by
  apply sum_congr rfl
  intro i _
  by_cases hi : i = a
  · rw [hi, update_self, h]
  · rw [update_of_ne hi]

/-- An object at the next address. -/
lemma total_alloc (b : β) : total w (update S n (some b)) (n + 1) = total w S n + w b := by
  rw [total, sum_range_succ, update_self]
  congr 1
  apply sum_congr rfl
  intro i hi
  rw [update_of_ne (Nat.ne_of_lt (mem_range.mp hi))]

end Total

end Heap
