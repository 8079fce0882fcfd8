import Mathlib.Data.List.Count
import Mathlib.Tactic.Lemma

/-!
# Histories

A history is a list of observations, newest first.  `After o P h` says that whenever `o` was
observed, what had been observed before it satisfies `P`; it is how the order of observations
is stated, and it is checked one observation at a time.
-/

namespace History

variable {α : Type*} {o x : α} {P Q : List α → Prop} {h : List α}

/-- Whenever `o` was observed, the history before it satisfies `P`. -/
def After (o : α) (P : List α → Prop) (h : List α) : Prop :=
  ∀ new old, h = new ++ o :: old → P old

lemma after_nil : After o P [] := by
  intro new old h
  cases new <;> cases h

/-- One more observation. -/
lemma after_cons : After o P (x :: h) ↔ (x = o → P h) ∧ After o P h := by
  constructor
  · intro hall
    refine ⟨fun hx => hall [] h (by rw [hx, List.nil_append]), fun new old heq => ?_⟩
    exact hall (x :: new) old (by rw [heq, List.cons_append])
  · rintro ⟨hx, hall⟩ new old heq
    cases new with
    | nil =>
      rw [List.nil_append, List.cons.injEq] at heq
      exact heq.2 ▸ hx heq.1
    | cons y new =>
      rw [List.cons_append, List.cons.injEq] at heq
      exact hall new old heq.2

/-- Observations other than `o` do not matter. -/
lemma after_append {l : List α} (hl : o ∉ l) : After o P (l ++ h) ↔ After o P h := by
  induction l with
  | nil => rfl
  | cons x l ih =>
    rw [List.mem_cons, not_or] at hl
    rw [List.cons_append, after_cons, ih hl.2]
    exact and_iff_right fun hx => absurd hx.symm hl.1

lemma After.mono (hh : After o P h) (hPQ : ∀ h, P h → Q h) : After o Q h :=
  fun new old heq => hPQ old (hh new old heq)

/-- Something observed before `o` in a selection was observed before it. -/
lemma After.of_filter {p : α → Bool} {y : α} (ho : p o = true)
    (hh : After o (y ∈ ·) (h.filter p)) : After o (y ∈ ·) h := by
  intro new old heq
  have hfilter : h.filter p = new.filter p ++ o :: old.filter p := by
    rw [heq, List.filter_append, List.filter_cons_of_pos ho]
  exact (List.mem_filter.mp (hh _ _ hfilter)).1

/-- What holds of a history holds of its beginnings. -/
lemma After.of_suffix {g : List α} (hh : After o P h) (hg : g <:+ h) : After o P g := by
  obtain ⟨later, rfl⟩ := hg
  intro new old heq
  exact hh (later ++ new) old (by rw [heq, List.append_assoc])

/-! ## Conditions on every observation -/

/-- Every observation was admissible after what had been observed before it. -/
def Always (F : α → List α → Prop) (h : List α) : Prop := ∀ x t, x :: t <:+ h → F x t

variable {F : α → List α → Prop}

lemma always_nil : Always F [] := by
  intro x t h
  exact absurd (List.suffix_nil.mp h) (List.cons_ne_nil x t)

lemma always_cons : Always F (x :: h) ↔ F x h ∧ Always F h := by
  constructor
  · intro hall
    exact ⟨hall x h (List.suffix_refl _), fun y t ht => hall y t (ht.trans (List.suffix_cons x h))⟩
  · rintro ⟨hx, hall⟩ y t ht
    rcases List.suffix_cons_iff.mp ht with heq | ht
    · obtain ⟨rfl, rfl⟩ := List.cons.inj heq
      exact hx
    · exact hall y t ht

instance decidableAlways [h : ∀ x t, Decidable (F x t)] : DecidablePred (Always F)
  | [] => isTrue always_nil
  | x :: t => @decidable_of_iff _ (F x t ∧ Always F t) always_cons.symm
    (@instDecidableAnd _ _ (h x t) (decidableAlways t))

/-- There was an observation in `p`, and none in `q` since. -/
def Since (p q : α → Prop) (h : List α) : Prop :=
  ∃ new x old, h = new ++ x :: old ∧ p x ∧ ∀ y ∈ new, ¬q y

variable {p q : α → Prop}

lemma Since.here (hx : p x) : Since p q (x :: h) :=
  ⟨[], x, h, rfl, hx, fun _ hy => absurd hy List.not_mem_nil⟩

lemma Since.cons (hh : Since p q h) (hx : ¬q x) : Since p q (x :: h) := by
  obtain ⟨new, y, old, rfl, hy, hnew⟩ := hh
  refine ⟨x :: new, y, old, rfl, hy, fun z hz => ?_⟩
  rcases List.mem_cons.mp hz with rfl | hz
  · exact hx
  · exact hnew z hz

end History
