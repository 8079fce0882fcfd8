import Mathlib.Data.Set.Function
import Mathlib.Tactic.Lemma

/-!
# Footprints in a linked heap

A heap is a partial map from addresses to objects, and an object may hold a link to another one.
A computation that follows links stays within every set of addresses that no link leads out of,
and nothing outside learns about it if no link leads into the set either.  Such a set is sealed.
It stays so as long as whatever is stored in it links to its own members.
-/

namespace Footprint

open Function

variable {ι α : Type*} {next : α → Option ι} {A : Set ι} {H H' : ι → Option α} {i j : ι} {s : α}

/-- No link leads out of `A`, and none into it. -/
def Sealed (next : α → Option ι) (A : Set ι) (H : ι → Option α) : Prop :=
  ∀ i s j, H i = some s → next s = some j → (i ∈ A ↔ j ∈ A)

lemma Sealed.follow (h : Sealed next A H) (hi : i ∈ A) (hs : H i = some s)
    (hj : next s = some j) : j ∈ A :=
  (h i s j hs hj).mp hi

/-- Outside, a link leads to the outside. -/
lemma Sealed.outside (h : Sealed next A H) (hi : i ∉ A) (hs : H i = some s)
    (hj : next s = some j) : j ∉ A :=
  fun hmem => hi ((h i s j hs hj).mpr hmem)

/-- Where every link goes both ways, it is enough that none leads out. -/
lemma sealed_of_symmetric
    (hsymm : ∀ i s j, H i = some s → next s = some j → ∃ q, H j = some q ∧ next q = some i)
    (hout : ∀ i ∈ A, ∀ s j, H i = some s → next s = some j → j ∈ A) : Sealed next A H := by
  intro i s j hs hj
  refine ⟨fun hi => hout i hi s j hs hj, fun hmem => ?_⟩
  obtain ⟨q, hq, hback⟩ := hsymm i s j hs hj
  exact hout j hmem q i hq hback

/-- Storing objects in `A` that link to members of `A`. -/
lemma Sealed.store (h : Sealed next A H) (hsame : Set.EqOn H' H Aᶜ)
    (hin : ∀ i ∈ A, ∀ s j, H' i = some s → next s = some j → j ∈ A) : Sealed next A H' := by
  intro i s j hs hj
  by_cases hi : i ∈ A
  · exact ⟨fun _ => hin i hi s j hs hj, fun _ => hi⟩
  · rw [hsame hi] at hs
    exact h i s j hs hj

variable [DecidableEq ι]

/-- Writing to one address of `A`. -/
lemma Sealed.update (h : Sealed next A H) (hi : i ∈ A) {o : Option α}
    (ho : ∀ s j, o = some s → next s = some j → j ∈ A) : Sealed next A (update H i o) := by
  refine h.store (fun k hk => update_of_ne ?_ ..) fun k hk s j hs hj => ?_
  · rintro rfl
    exact hk hi
  · by_cases hki : k = i
    · rw [hki, update_self] at hs
      exact ho s j hs hj
    · rw [update_of_ne hki] at hs
      exact h.follow hk hs hj

end Footprint
